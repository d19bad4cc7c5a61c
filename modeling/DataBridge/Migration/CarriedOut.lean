import DataBridge.Framework.Simulates
import DataBridge.Migration.StaticPlan
import DataBridge.Migration.StaticSource

namespace DataBridge

/-- What a migration asks of its destination. Rows that are accepted together are accepted batch by
batch too, and end where they would end at once. -/
structure DestinationStore (D : Type) where
  present : D → String → Bool
  create : D → TableSchema → D
  clear : D → String → D
  append : D → String → List Row → D
  Accepts : D → String → List Row → Prop
  append_nil : ∀ d t, append d t [] = d
  append_append : ∀ d t xs ys, append (append d t xs) t ys = append d t (xs ++ ys)
  accepts_append : ∀ d t xs ys, Accepts d t (xs ++ ys) →
    Accepts d t xs ∧ Accepts (append d t xs) t ys

open Call (Simulates Silent Fails)

variable {D W α : Type}

/-- The databases, and how many of the next repeated calls fail before one gets through. -/
structure Faulted (D : Type) where
  data : D
  faults : Nat

/-- A call that the executor repeats. It fails while faults are left, and gets through after them;
up to `m` faults may come before the next such call gets through. -/
structure Repeated (m : Nat) (At : Faulted D → W → Prop) (d d' : D) (P : α → Prop)
    (c : Call Exc W α) : Prop where
  fails : ∀ k, Fails At ⟨d, k + 1⟩ ⟨d, k⟩ c
  works : Simulates At ⟨d, 0⟩ (fun a e => P a ∧ e.data = d' ∧ e.faults ≤ m) c

/-- Both databases work: the source holds its rows, and the destination takes what it accepts. The
calls for rows may fail up to `m` times in a row. -/
structure Working (m : Nat) (store : DestinationStore D) (At : Faulted D → W → Prop)
    (held : String → Option (List Row)) (src dst : BaseDatabaseProvider W) : Prop where
  fetch : ∀ d t rows offset limit cols, held t = some rows →
    Repeated m At d d (fun batch => batch = selectRows rows ⟨cols, t, limit, offset⟩)
      (src.fetchBatch t offset limit cols)
  create : ∀ e schema, Simulates At e (fun _ e' => e' = ⟨store.create e.data schema, e.faults⟩)
    (dst.createTable schema)
  clear : ∀ e t, store.present e.data t = true →
    Simulates At e (fun _ e' => e' = ⟨store.clear e.data t, e.faults⟩) (dst.truncateTable t)
  insert : ∀ d t batch, batch ≠ [] → store.Accepts d t batch →
    Repeated m At d (store.append d t batch) (fun _ => True) (dst.insertBatch t batch none)

namespace MigrationExecutor

variable (x : MigrationExecutor W) (store : DestinationStore D) (held : String → Option (List Row))

/-! ## What a run makes of the destination -/

def created (d : D) (tp : MigrationTablePlan) : D :=
  if x.includeSchema then store.create d tp.sourceSchema else d

def ready (d : D) (tp : MigrationTablePlan) : D :=
  if x.truncate then store.clear (x.created store d tp) tp.tableName else x.created store d tp

/-- The rows of the table as they are to stand in the destination. -/
def targetOf (tp : MigrationTablePlan) : List Row :=
  match transform tp.columnMappings ((held tp.tableName).getD []) with
  | .ok target => target
  | .error _ => []

def copied (d : D) (tp : MigrationTablePlan) : D :=
  if x.includeData then store.append (x.ready store d tp) tp.tableName (targetOf held tp)
  else x.ready store d tp

/-- The destination after the entries of a plan. -/
def carriedOut (tps : List MigrationTablePlan) (d : D) : D :=
  tps.foldl (fun d tp => if tp.status = .skipped then d else x.copied store held d tp) d

/-- The entries that are not skipped. -/
def wanted (tps : List MigrationTablePlan) : List MigrationTablePlan :=
  tps.filter fun tp => tp.status ≠ .skipped

/-- The source rows of the entries that are not skipped. -/
def wantedRows (tps : List MigrationTablePlan) : Nat :=
  ((wanted tps).map fun tp => ((held tp.tableName).getD []).length).sum

/-- The result of a run that copies everything. -/
def fullResult (tps : List MigrationTablePlan) : ExecResult where
  completedTables := (wanted tps).map (·.tableName)
  skippedTables := (tps.filter fun tp => tp.status = .skipped).map (·.tableName)
  totalRowsMigrated := if x.includeData then wantedRows held tps else 0

/-- The copy of the entry can go through: the table is there to be cleared, its rows can be read and
transformed, and the destination accepts them. -/
structure CanCopy (d : D) (tp : MigrationTablePlan) : Prop where
  clear : x.truncate = true → store.present (x.created store d tp) tp.tableName = true
  copy : x.includeData = true → ∃ rows, held tp.tableName = some rows ∧
    transform tp.columnMappings rows = .ok (targetOf held tp) ∧
    store.Accepts (x.ready store d tp) tp.tableName (targetOf held tp)

/-- Every entry that is not skipped can be copied when its turn comes. -/
def Feasible : List MigrationTablePlan → D → Prop
  | [], _ => True
  | tp :: tps, d =>
    if tp.status = .skipped then Feasible tps d
    else x.CanCopy store held d tp ∧ Feasible tps (x.copied store held d tp)

/-! ## The executor does it -/

/-- The databases and their faults, and the executor's counter. -/
def Tallied (At : Faulted D → W → Prop) (e : Faulted D × Nat) (s : ExecState W) : Prop :=
  At e.1 s.world ∧ s.totalRowsProcessed = e.2

/-- The callbacks and the waits return, and change nothing of the databases. -/
structure Quiet (At : Faulted D → W → Prop) : Prop where
  log : ∀ f, x.onLog = some f → ∀ e level message table, Silent At e (f level message table)
  progress : ∀ f, x.onProgress = some f → ∀ e table rows total error,
    Silent At e (f table rows total error)
  sleep : ∀ e seconds, Silent At e (x.sleep seconds)

variable {x store held} {At : Faulted D → W → Prop} {e : Faulted D} {d : D} {k n : Nat}

theorem simulates_await {R : α → Faulted D → Prop} {c : Call Exc W α} (hc : Simulates At e R c) :
    Simulates (Tallied At) (e, n) (fun a e' => R a e'.1 ∧ e'.2 = n) (ExecState.await c) := by
  refine (hc.zoom (fun e' => (e', n)) (fun _ h => h.1) (fun _ _ _ h hat => ⟨hat, h.2⟩)).mono ?_
  intro a e' h
  obtain ⟨e'', hr, heq⟩ := h
  rw [heq]
  exact ⟨hr, rfl⟩

theorem fails_await {c : Call Exc W α} {e' : Faulted D} (hc : Fails At e e' c) :
    Fails (Tallied At) (e, n) (e', n) (ExecState.await c) :=
  hc.zoom (fun _ h => h.1) (fun _ _ h hat => ⟨hat, h.2⟩)

theorem silent_await {c : Call Exc W α} (hc : Silent At e c) :
    Silent (Tallied At) (e, n) (ExecState.await c) := by
  refine (simulates_await hc).mono ?_
  intro a e' h
  exact Prod.ext h.1 h.2

theorem Quiet.silent_log (h : x.Quiet At) (level message : String) (table : Option String) :
    Silent (Tallied At) (e, n) (x.log level message table) := by
  rw [MigrationExecutor.log]
  cases hlog : x.onLog with
  | none => exact Call.simulates_pure rfl
  | some f => exact silent_await (h.log f hlog e level message table)

theorem Quiet.silent_backOff (h : x.Quiet At) (again : Bool) (seconds : Nat) :
    Silent (Tallied At) (e, n) (x.backOff again seconds) := by
  rw [MigrationExecutor.backOff]
  split
  · exact silent_await (h.sleep e seconds)
  · exact Call.simulates_pure rfl

theorem Quiet.silent_reportProgress (h : x.Quiet At) (table : String) (rows : Nat) :
    Silent (Tallied At) (e, n) (x.reportProgress table rows) := by
  rw [MigrationExecutor.reportProgress]
  cases hprogress : x.onProgress with
  | none => exact Call.simulates_pure rfl
  | some f =>
    refine Simulates.after (Call.silent_read _) fun total => ?_
    exact silent_await (h.progress f hprogress e table rows total none)

/-- A batch that is accepted gets through if fewer faults come than there are attempts. -/
theorem simulates_insertWithRetry
    (hworks : Working x.maxRetries store At held x.source x.destination) (hquiet : x.Quiet At)
    {t : String} {batch : List Row} (hne : batch ≠ []) (haccepts : store.Accepts d t batch)
    (hk : k ≤ x.maxRetries) :
    Simulates (Tallied At) (⟨d, k⟩, n) (fun ok e => ok = true ∧
      e.1.data = store.append d t batch ∧ e.1.faults ≤ x.maxRetries ∧ e.2 = n)
      (x.insertWithRetry t batch) := by
  have hinsert := hworks.insert d t batch hne haccepts
  -- An attempt fails with one fault less to come, so they run out before the attempts do.
  have hloop : Simulates (Tallied At) (⟨d, k⟩, n) (fun r e => r = some true ∧
      e.1.data = store.append d t batch ∧ e.1.faults ≤ x.maxRetries ∧ e.2 = n)
      (Call.forRange (x.insertAttempt t batch) (x.maxRetries + 1) 0) := by
    refine Call.simulates_forRange
      (fun i e => e.1.data = d ∧ i + e.1.faults ≤ x.maxRetries ∧ e.2 = n) (x.maxRetries + 1) ?_ ?_
      (Nat.zero_add _) ⟨rfl, by simpa using hk, rfl⟩
    · intro i e hi h
      obtain ⟨⟨d₀, j⟩, n₀⟩ := e
      obtain ⟨hd, hj, hn⟩ := h
      dsimp only at hd hj hn
      subst hd hn
      rw [insertAttempt]
      cases j with
      | zero =>
        refine Simulates.tryExcept _ ((simulates_await hinsert.works).bind ?_)
        intro count e h
        obtain ⟨⟨-, hdata, hfaults⟩, hcounter⟩ := h
        exact Call.simulates_pure ⟨rfl, hdata, hfaults, hcounter⟩
      | succ j =>
        refine Fails.tryExcept ((fails_await (hinsert.fails j)).bind _) fun exc => ?_
        refine Simulates.after (hquiet.silent_log _ _ _) fun _ => ?_
        refine Simulates.after (hquiet.silent_backOff _ _) fun _ => ?_
        exact Call.simulates_pure ⟨rfl, by dsimp only; omega, rfl⟩
    · intro e h
      have hfaults := h.2.1
      omega
  refine hloop.bind ?_
  intro r e h
  obtain ⟨rfl, hrest⟩ := h
  exact Call.simulates_pure ⟨rfl, hrest⟩

theorem simulates_fetchAttempt (hworks : Working x.maxRetries store At held x.source x.destination)
    {tp : MigrationTablePlan} {rows : List Row} (hrows : held tp.tableName = some rows)
    (v : CopyVars) :
    Simulates (Tallied At) (⟨d, 0⟩, n) (fun batch e => batch = some (selectRows rows
        ⟨selectedColumns tp.columnMappings, tp.tableName, x.batchSize, v.offset⟩) ∧
      e.1.data = d ∧ e.1.faults ≤ x.maxRetries ∧ e.2 = n) (x.fetchAttempt tp v) := by
  have hfetch := hworks.fetch d tp.tableName rows v.offset x.batchSize
    (selectedColumns tp.columnMappings) hrows
  refine Simulates.tryExcept _ ((simulates_await hfetch.works).bind ?_)
  intro batch e h
  obtain ⟨⟨rfl, hdata, hfaults⟩, hcounter⟩ := h
  exact Call.simulates_pure ⟨rfl, hdata, hfaults, hcounter⟩

theorem simulates_fetchAttempt_fault
    (hworks : Working x.maxRetries store At held x.source x.destination) (hquiet : x.Quiet At)
    {tp : MigrationTablePlan} {rows : List Row} (hrows : held tp.tableName = some rows)
    (v : CopyVars) :
    Simulates (Tallied At) (⟨d, k + 1⟩, n) (fun batch e => batch = none ∧ e = (⟨d, k⟩, n))
      (x.fetchAttempt tp v) := by
  have hfetch := hworks.fetch d tp.tableName rows v.offset x.batchSize
    (selectedColumns tp.columnMappings) hrows
  refine Fails.tryExcept ((fails_await (hfetch.fails k)).bind _) fun exc => ?_
  refine Simulates.after (hquiet.silent_log _ _ _) fun _ => ?_
  refine Simulates.after (hquiet.silent_backOff _ _) fun _ => ?_
  exact Call.simulates_pure ⟨rfl, rfl⟩

theorem simulates_addRows (count : Nat) : Simulates (Tallied At) (e, n)
    (fun _ e' => e' = (e, n + count))
    (Call.modify (ExecState.addRows count) : Call Exc (ExecState W) Unit) := by
  intro s h
  obtain ⟨hat, htotal⟩ := h
  exact ⟨_, rfl, hat, by rw [ExecState.addRows, htotal]⟩

variable (x store) in
/-- Between two passes: the rows before the offset are in the destination, and counted, and fewer
faults are to come than tries are left. -/
structure CopiedSoFar (start : D) (t : String) (target : List Row) (n : Nat) (v : CopyVars)
    (e : Faulted D × Nat) : Prop where
  offset : v.offset ≤ target.length
  data : e.1.data = store.append start t (target.take v.offset)
  faults : v.retryCount + e.1.faults ≤ x.maxRetries
  counter : e.2 = n + v.offset

variable (x) in
/-- The passes that the copy of a table still has, with every try of every batch. -/
def passesLeft (target : List Row) (v : CopyVars) : Nat :=
  (target.length - v.offset) * (x.maxRetries + 1) + (x.maxRetries - v.retryCount)

/-- A batch that is copied leaves fewer passes, although the tries start again. -/
theorem passesLeft_lt {target : List Row} {v w : CopyVars} (hoffset : v.offset < w.offset)
    (hbound : w.offset ≤ target.length) : x.passesLeft target w < x.passesLeft target v := by
  have hsplit : target.length - v.offset = (target.length - w.offset) + (w.offset - v.offset) := by
    omega
  have hone : 1 * (x.maxRetries + 1) ≤ (w.offset - v.offset) * (x.maxRetries + 1) :=
    Nat.mul_le_mul_right _ (by omega)
  rw [passesLeft, passesLeft, hsplit, Nat.add_mul]
  omega

theorem simulates_copyPass (hworks : Working x.maxRetries store At held x.source x.destination)
    (hquiet : x.Quiet At) (hbatch : 0 < x.batchSize) {tp : MigrationTablePlan}
    {rows target : List Row} (hrows : held tp.tableName = some rows)
    (htarget : transform tp.columnMappings rows = .ok target) {start : D}
    (haccepts : store.Accepts start tp.tableName target) {v : CopyVars} {e : Faulted D × Nat}
    (hv : x.CopiedSoFar store start tp.tableName target n v e) :
    Simulates (Tallied At) e (fun p e' => match p with
      | .again v' => x.CopiedSoFar store start tp.tableName target n v' e' ∧
          x.passesLeft target v' < x.passesLeft target v
      | .done ok => ok = true ∧ e'.1.data = store.append start tp.tableName target ∧
          e'.1.faults ≤ x.maxRetries ∧ e'.2 = n + target.length)
      (x.copyPass tp v) := by
  obtain ⟨⟨d, k⟩, m⟩ := e
  obtain ⟨hoff, hdata, hfaults, hcounter⟩ := hv
  dsimp only at hdata hfaults hcounter
  have hlen := transform_length htarget
  rw [copyPass]
  cases k with
  | succ k =>
    have hagain : v.retryCount < x.maxRetries := by omega
    refine (simulates_fetchAttempt_fault hworks hquiet hrows v).bind ?_
    intro found e h
    obtain ⟨rfl, rfl⟩ := h
    dsimp only
    rw [if_pos hagain]
    refine Call.simulates_pure ⟨⟨hoff, hdata, by dsimp only; omega, hcounter⟩, ?_⟩
    rw [passesLeft, passesLeft]
    dsimp only
    omega
  | zero =>
    refine (simulates_fetchAttempt hworks hrows v).bind ?_
    intro found e h
    obtain ⟨⟨d', k'⟩, m'⟩ := e
    obtain ⟨rfl, hsame, hnext, hcount'⟩ := h
    dsimp only at hsame hnext hcount'
    subst hsame hcount'
    have hpage := transform_selectRows htarget tp.tableName v.offset x.batchSize
    have hcount : (selectRows rows ⟨selectedColumns tp.columnMappings, tp.tableName, x.batchSize,
        v.offset⟩).length = (window target v.offset x.batchSize).length := by
      rw [window_length, hlen]
      simp [selectRows]
    generalize selectRows rows ⟨selectedColumns tp.columnMappings, tp.tableName, x.batchSize,
      v.offset⟩ = batch at hpage hcount
    have hwindow := window_length target v.offset x.batchSize
    cases batch with
    | nil =>
      have hend : v.offset = target.length := by
        rw [List.length_nil] at hcount
        omega
      have hall : d' = store.append start tp.tableName target := by
        rw [hdata, hend, List.take_length]
      refine Simulates.after (hquiet.silent_log _ _ _) fun _ => ?_
      exact Call.simulates_pure ⟨rfl, hall, hnext, by rw [hcounter, hend]⟩
    | cons row rest =>
      have hpos : 0 < (window target v.offset x.batchSize).length := by
        rw [← hcount]
        exact Nat.succ_pos _
      have hsplit := take_append_window target v.offset x.batchSize
      have hbound : v.offset + (window target v.offset x.batchSize).length ≤ target.length := by
        omega
      have hbatchAccepted :
          store.Accepts d' tp.tableName (window target v.offset x.batchSize) := by
        have hfirst := haccepts
        rw [← List.take_append_drop (v.offset + (window target v.offset x.batchSize).length) target,
          ← hsplit] at hfirst
        rw [hdata]
        exact (store.accepts_append _ _ _ _ (store.accepts_append _ _ _ _ hfirst).1).2
      have htransformed : Simulates (Tallied At) (⟨d', k'⟩, m')
          (fun out e => out = window target v.offset x.batchSize ∧ e = (⟨d', k'⟩, m'))
          (Call.ofExcept (transform tp.columnMappings (row :: rest))) := by
        rw [hpage]
        exact Call.simulates_pure ⟨rfl, rfl⟩
      refine htransformed.bind ?_
      intro out e h
      obtain ⟨rfl, rfl⟩ := h
      refine (simulates_insertWithRetry hworks hquiet (List.ne_nil_of_length_pos hpos)
        hbatchAccepted hnext).bind ?_
      intro ok e h
      obtain ⟨⟨d'', k''⟩, m''⟩ := e
      obtain ⟨rfl, hdata', hfaults', rfl⟩ := h
      dsimp only at hdata' hfaults'
      refine (simulates_addRows (row :: rest).length).bind ?_
      intro _ e h
      subst h
      refine Simulates.after (hquiet.silent_reportProgress _ _) fun _ => ?_
      refine Call.simulates_pure ⟨⟨?_, ?_, ?_, ?_⟩, passesLeft_lt ?_ ?_⟩
      · rw [hcount]
        exact hbound
      · rw [hdata', hdata, store.append_append, hsplit, ← hcount]
      · dsimp only
        omega
      · dsimp only
        omega
      · simp
      · rw [hcount]
        exact hbound

/-- The copy of a table ends with all of its rows in the destination. -/
theorem simulates_copyLoop (hworks : Working x.maxRetries store At held x.source x.destination)
    (hquiet : x.Quiet At) (hbatch : 0 < x.batchSize) {tp : MigrationTablePlan}
    {rows target : List Row} (hrows : held tp.tableName = some rows)
    (htarget : transform tp.columnMappings rows = .ok target)
    (haccepts : store.Accepts d tp.tableName target) (hk : k ≤ x.maxRetries) {fuel : Nat}
    (hfuel : (rows.length + 1) * (x.maxRetries + 1) ≤ fuel) :
    Simulates (Tallied At) (⟨d, k⟩, n) (fun ok e => ok = true ∧
        e.1.data = store.append d tp.tableName target ∧ e.1.faults ≤ x.maxRetries ∧
        e.2 = n + target.length)
      (Call.loop (x.copyPass tp) fuel {}) := by
  refine Call.simulates_loop (fun v e => x.CopiedSoFar store d tp.tableName target n v e)
    (x.passesLeft target) ?_ ?_ ?_
  · intro v e hv
    refine (simulates_copyPass hworks hquiet hbatch hrows htarget haccepts hv).mono ?_
    intro p e' h
    cases p with
    | again v' => exact h
    | done ok => exact h
  · exact ⟨Nat.zero_le _, by rw [List.take_zero, store.append_nil], by simpa using hk, rfl⟩
  · rw [Nat.add_mul, Nat.one_mul] at hfuel
    rw [passesLeft, transform_length htarget]
    dsimp only
    rw [Nat.sub_zero]
    omega

theorem simulates_ensureTable (hworks : Working x.maxRetries store At held x.source x.destination)
    (hquiet : x.Quiet At) (tp : MigrationTablePlan) :
    Simulates (Tallied At) (⟨d, k⟩, n) (fun ok e => ok = true ∧ e = (⟨x.created store d tp, k⟩, n))
      (x.ensureTable tp) := by
  rw [ensureTable, created]
  split
  · refine Simulates.tryExcept _
      ((simulates_await (hworks.create ⟨d, k⟩ tp.sourceSchema)).bind ?_)
    intro _ e h
    obtain ⟨hcreate, hcounter⟩ := h
    obtain rfl : e = (⟨store.create d tp.sourceSchema, k⟩, n) := Prod.ext hcreate hcounter
    exact Simulates.after (hquiet.silent_log _ _ _) fun _ => Call.simulates_pure ⟨rfl, rfl⟩
  · exact Call.simulates_pure ⟨rfl, rfl⟩

theorem simulates_clearTable (hworks : Working x.maxRetries store At held x.source x.destination)
    (hquiet : x.Quiet At) (tp : MigrationTablePlan)
    (hpresent : x.truncate = true → store.present d tp.tableName = true) :
    Simulates (Tallied At) (⟨d, k⟩, n)
      (fun _ e => e = (⟨if x.truncate then store.clear d tp.tableName else d, k⟩, n))
      (x.clearTable tp) := by
  rw [clearTable]
  split
  · rename_i htruncate
    refine Simulates.tryExcept _
      ((simulates_await (hworks.clear ⟨d, k⟩ tp.tableName (hpresent htruncate))).bind ?_)
    intro _ e h
    obtain ⟨hclear, hcounter⟩ := h
    obtain rfl : e = (⟨store.clear d tp.tableName, k⟩, n) := Prod.ext hclear hcounter
    exact hquiet.silent_log _ _ _
  · exact Call.simulates_pure rfl

/-- One entry of the plan. -/
theorem simulates_migrateTable (hworks : Working x.maxRetries store At held x.source x.destination)
    (hquiet : x.Quiet At) (hbatch : 0 < x.batchSize) {tp : MigrationTablePlan}
    (hcan : x.CanCopy store held d tp) (hk : k ≤ x.maxRetries) {fuel : Nat}
    (hfuel : (((held tp.tableName).getD []).length + 1) * (x.maxRetries + 1) ≤ fuel) :
    Simulates (Tallied At) (⟨d, k⟩, n) (fun ok e => ok = true ∧
        e.1.data = x.copied store held d tp ∧ e.1.faults ≤ x.maxRetries ∧
        e.2 = n + if x.includeData then ((held tp.tableName).getD []).length else 0)
      (x.migrateTable fuel tp) := by
  rw [migrateTable]
  refine Simulates.after (hquiet.silent_log _ _ _) fun _ => ?_
  refine (simulates_ensureTable hworks hquiet tp).bind ?_
  intro ok e h
  obtain ⟨rfl, rfl⟩ := h
  refine (simulates_clearTable hworks hquiet tp hcan.clear).bind ?_
  intro _ e h
  subst h
  change Simulates (Tallied At) (⟨x.ready store d tp, k⟩, n) _ _
  rw [copied]
  by_cases hdata : x.includeData = true
  · obtain ⟨rows, hrows, htarget, haccepts⟩ := hcan.copy hdata
    have hheld : (held tp.tableName).getD [] = rows := by rw [hrows, Option.getD_some]
    rw [hheld] at hfuel ⊢
    simp only [hdata, if_true]
    rw [← transform_length htarget]
    exact simulates_copyLoop hworks hquiet hbatch hrows htarget haccepts hk hfuel
  · simp only [hdata, Bool.false_eq_true, if_false]
    refine Simulates.after (hquiet.silent_log _ _ _) fun _ => ?_
    exact Call.simulates_pure ⟨rfl, rfl, hk, rfl⟩

/-- What the loop over the plan has put into its result after the entries `done`. -/
structure Listed (x : MigrationExecutor W) (held : String → Option (List Row))
    (done : List MigrationTablePlan) (results : ExecResult) (total : Nat) : Prop where
  completed : results.completedTables = (x.fullResult held done).completedTables
  skipped : results.skippedTables = (x.fullResult held done).skippedTables
  failed : results.failedTables = []
  total : total = (x.fullResult held done).totalRowsMigrated

theorem Listed.skip {done : List MigrationTablePlan} {results : ExecResult} {total : Nat}
    (h : Listed x held done results total) {tp : MigrationTablePlan} (hskip : tp.status = .skipped) :
    Listed x held (done ++ [tp])
      { results with skippedTables := results.skippedTables ++ [tp.tableName] } total where
  completed := by simp [fullResult, wanted, hskip, h.completed]
  skipped := by simp [fullResult, hskip, h.skipped]
  failed := h.failed
  total := by simp [fullResult, wantedRows, wanted, hskip, h.total]

theorem Listed.complete {done : List MigrationTablePlan} {results : ExecResult} {total : Nat}
    (h : Listed x held done results total) {tp : MigrationTablePlan} (hkeep : tp.status ≠ .skipped) :
    Listed x held (done ++ [tp])
      { results with completedTables := results.completedTables ++ [tp.tableName] }
      (total + if x.includeData then ((held tp.tableName).getD []).length else 0) where
  completed := by simp [fullResult, wanted, hkeep, h.completed]
  skipped := by simp [fullResult, hkeep, h.skipped]
  failed := h.failed
  total := by
    rw [h.total]
    by_cases hdata : x.includeData
    · simp [fullResult, wantedRows, wanted, hkeep, hdata]
    · simp [fullResult, hdata]

/-- A run in which every repeated call gets through in time carries the plan out and lists every
entry. -/
theorem simulates_run (hworks : Working x.maxRetries store At held x.source x.destination)
    (hquiet : x.Quiet At) (hbatch : 0 < x.batchSize)
    (hfeasible : x.Feasible store held x.plan.tables d) (hk : k ≤ x.maxRetries) {fuel : Nat}
    (hfuel : ∀ tp ∈ x.plan.tables,
      (((held tp.tableName).getD []).length + 1) * (x.maxRetries + 1) ≤ fuel) :
    Simulates (Tallied At) (⟨d, k⟩, 0)
      (fun results e => results = x.fullResult held x.plan.tables ∧
        e.1.data = x.carriedOut store held x.plan.tables d ∧ e.1.faults ≤ x.maxRetries)
      (x.run fuel) := by
  have hloop : Simulates (Tallied At) (⟨d, k⟩, 0)
      (fun results e => Listed x held x.plan.tables results e.2 ∧
        e.1.data = x.carriedOut store held x.plan.tables d ∧ e.1.faults ≤ x.maxRetries)
      (Call.forEach (x.runTable fuel) x.plan.tables {}) := by
    refine Call.simulates_forEach (fun tps results e => ∃ done, done ++ tps = x.plan.tables ∧
      Listed x held done results e.2 ∧ x.Feasible store held tps e.1.data ∧
      x.carriedOut store held tps e.1.data = x.carriedOut store held x.plan.tables d ∧
      e.1.faults ≤ x.maxRetries) ?_ ?_
      ⟨[], rfl, ⟨rfl, rfl, rfl, by simp [fullResult, wantedRows, wanted]⟩, hfeasible, rfl, hk⟩
    · intro tp tps results e h
      obtain ⟨⟨d', k'⟩, m⟩ := e
      obtain ⟨done, hdone, hlisted, hrest, hout, hfaults⟩ := h
      dsimp only at hlisted hrest hout hfaults
      have hsplit : (done ++ [tp]) ++ tps = x.plan.tables := by
        rw [List.append_assoc, List.singleton_append, hdone]
      rw [runTable]
      by_cases hskip : tp.status = .skipped
      · rw [if_pos hskip]
        rw [Feasible, if_pos hskip] at hrest
        rw [carriedOut, List.foldl_cons, if_pos hskip] at hout
        refine Simulates.after (hquiet.silent_log _ _ _) fun _ => ?_
        exact Call.simulates_pure ⟨done ++ [tp], hsplit, hlisted.skip hskip, hrest, hout, hfaults⟩
      · rw [if_neg hskip]
        rw [Feasible, if_neg hskip] at hrest
        rw [carriedOut, List.foldl_cons, if_neg hskip] at hout
        have htp : tp ∈ x.plan.tables := by
          rw [← hdone]
          simp
        refine (simulates_migrateTable hworks hquiet hbatch hrest.1 hfaults (hfuel tp htp)).bind ?_
        intro ok e h
        obtain ⟨⟨d'', k''⟩, m'⟩ := e
        obtain ⟨rfl, hdata, hfaults', hcounter⟩ := h
        dsimp only at hdata hfaults' hcounter
        subst hdata hcounter
        exact Call.simulates_pure
          ⟨done ++ [tp], hsplit, hlisted.complete hskip, hrest.2, hout, hfaults'⟩
    · intro results e h
      obtain ⟨done, hdone, hlisted, -, hout, hfaults⟩ := h
      rw [List.append_nil] at hdone
      rw [hdone] at hlisted
      exact ⟨hlisted, hout, hfaults⟩
  rw [run]
  refine hloop.bind ?_
  intro results e h
  obtain ⟨hlisted, hout, hfaults⟩ := h
  intro s hs
  obtain ⟨hat, htotal⟩ := hs
  refine ⟨e, ⟨?_, hout, hfaults⟩, hat, htotal⟩
  have hresults : results = { completedTables := results.completedTables,
                              skippedTables := results.skippedTables,
                              failedTables := results.failedTables,
                              totalRowsMigrated := results.totalRowsMigrated } := rfl
  rw [hresults, hlisted.completed, hlisted.skipped, hlisted.failed, htotal, hlisted.total]
  rfl

end MigrationExecutor

end DataBridge
