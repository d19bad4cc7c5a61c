import DataBridge.Framework.Keeps
import DataBridge.Migration.Executor
import DataBridge.Migration.Planner

namespace DataBridge

variable {W : Type} {I : W → Prop}

/-- Every operation of the provider keeps `I`. -/
structure BaseDatabaseProvider.Keeps (I : W → Prop) (p : BaseDatabaseProvider W) : Prop where
  getTableSchema : ∀ t, Call.Keeps I (p.getTableSchema t)
  tableExists : ∀ t, Call.Keeps I (p.tableExists t)
  fetchBatch : ∀ t offset limit cols, Call.Keeps I (p.fetchBatch t offset limit cols)
  createTable : ∀ schema, Call.Keeps I (p.createTable schema)
  insertBatch : ∀ t rows cols, Call.Keeps I (p.insertBatch t rows cols)
  truncateTable : ∀ t, Call.Keeps I (p.truncateTable t)

/-- Everything the executor awaits keeps `I`. -/
structure MigrationExecutor.Keeps (I : W → Prop) (x : MigrationExecutor W) : Prop where
  source : x.source.Keeps I
  destination : x.destination.Keeps I
  onProgress : ∀ f, x.onProgress = some f → ∀ t rows total error, Call.Keeps I (f t rows total error)
  onLog : ∀ f, x.onLog = some f → ∀ level message t, Call.Keeps I (f level message t)
  sleep : ∀ seconds, Call.Keeps I (x.sleep seconds)

namespace MigrationPlanner

/-- Planning keeps what the two providers keep. -/
theorem keeps_buildPlan {p : MigrationPlanner W} (hs : p.source.Keeps I)
    (hd : p.destination.Keeps I) : Call.Keeps I p.buildPlan := by
  apply Call.Keeps.forEach
  intro plan t
  have hdest : ∀ plan', Call.Keeps I (p.readDestination t plan') := by
    intro plan'
    refine (hd.tableExists t).bind ?_
    intro destExists
    cases destExists with
    | true =>
      exact ((hd.getTableSchema t).bind fun _ => Call.keeps_pure _).tryExcept
        fun _ => Call.keeps_pure _
    | false => exact Call.keeps_pure _
  refine (((hs.getTableSchema t).bind fun _ => Call.keeps_pure _).tryExcept
    fun _ => Call.keeps_pure _).bind ?_
  intro srcSchema
  cases srcSchema with
  | error exc => exact Call.keeps_pure _
  | ok src => exact (hdest plan).bind fun _ => Call.keeps_pure _

/-- One requested name, and the exception with which its source schema could not be read. -/
structure SchemaRead where
  tableName : String
  failed : Option Exc

/-- What planning keeps of the names read so far and of the plan made of them: the ways in which a
name enters the plan, and a warning, keep it. -/
structure KeptByPlanning (P : List SchemaRead → MigrationPlan → Prop) : Prop where
  empty : P [] .empty
  warn : ∀ {reads plan}, P reads plan → ∀ warning, P reads (plan.warn warning)
  unread : ∀ {reads plan}, P reads plan → ∀ tableName exc,
    P (reads ++ [⟨tableName, some exc⟩]) (plan.warn (sourceReadWarning tableName exc))
  planTable : ∀ {reads plan}, P reads plan → ∀ tableName src dest,
    P (reads ++ [⟨tableName, none⟩]) (MigrationPlanner.planTable tableName src dest plan)

variable {P : List SchemaRead → MigrationPlan → Prop}

/-- Reading the destination may add a warning, and nothing else. -/
theorem wp_readDestination (hP : KeptByPlanning P) (p : MigrationPlanner W) (tableName : String)
    (plan : MigrationPlan) {reads : List SchemaRead} (h : P reads plan) (w : W) :
    Call.wp (p.readDestination tableName plan) (Post.onReturn fun r _ => P reads r.2) w := by
  apply Call.wp_bind_any
  intro destExists w'
  cases destExists with
  | false => exact h
  | true =>
    have hok : ∀ (s : TableSchema) (w₁ : W), Call.wp
        (pure (some s, plan) : Call Exc W (Option TableSchema × MigrationPlan))
        (Post.onReturn fun r _ => P reads r.2) w₁ := fun _ _ => h
    rw [if_pos rfl, Call.wp_tryExcept, Call.wp_bind]
    exact Call.wp_of_forall hok (fun exc _ => hP.warn h _) (fun _ => trivial)

/-- Whatever the providers answer or raise, a returned plan comes from reading every requested
name in turn. -/
theorem wp_buildPlan_reads (hP : KeptByPlanning P) (p : MigrationPlanner W) (w : W) :
    Call.wp p.buildPlan (Post.onReturn fun plan _ =>
      ∃ reads, reads.map SchemaRead.tableName = p.tableNames ∧ P reads plan) w := by
  refine Call.wp_forEach (fun done plan _ =>
      ∃ reads, reads.map SchemaRead.tableName = done ∧ P reads plan)
    p.tableNames ?_ (fun _ _ h => h) [] _ _ _ rfl ⟨[], rfl, hP.empty⟩
  intro done tableName later plan w hall hreads
  obtain ⟨reads, hnames, hplan⟩ := hreads
  have hnext : ∀ r : SchemaRead, r.tableName = tableName →
      (reads ++ [r]).map SchemaRead.tableName = done ++ [tableName] := by
    intro r hr
    simp [hnames, hr]
  rw [buildPlanStep, Call.wp_bind]
  refine Call.wp_of_forall ?_ (fun _ _ => trivial) (fun _ => trivial)
  intro srcSchema w₁
  cases srcSchema with
  | error exc => exact ⟨_, hnext ⟨tableName, some exc⟩ rfl, hP.unread hplan tableName exc⟩
  | ok src =>
    have hdestination := wp_readDestination hP p tableName plan hplan w₁
    refine Call.wp_seq (Call.wp_onReturn hdestination) ?_
    intro r w₂ hr
    exact ⟨_, hnext ⟨tableName, none⟩ rfl, hP.planTable hr tableName src r.1⟩

end MigrationPlanner

namespace MigrationExecutor

variable {x : MigrationExecutor W}

/-- The end of a pass: the batch is inserted, counted and reported. -/
def storeBatch (x : MigrationExecutor W) (table : String) (v : CopyVars) (count : Nat)
    (rows : List Row) : Call Exc (ExecState W) (Pass CopyVars Bool) := do
  let insertOk ← x.insertWithRetry table rows
  if insertOk then do
    Call.modify (ExecState.addRows count)
    x.reportProgress table (v.rowsForTable + count)
    pure (.again {
      offset := v.offset + count
      rowsForTable := v.rowsForTable + count
      retryCount := 0 })
  else pure (.done false)

/-- The parts of a run keep `J`, which may also speak of the executor's counter. -/
structure Maintains (J : ExecState W → Prop) (x : MigrationExecutor W) : Prop where
  createTable : ∀ schema, Call.Keeps J (ExecState.await (x.destination.createTable schema))
  truncateTable : ∀ t, Call.Keeps J (ExecState.await (x.destination.truncateTable t))
  fetchBatch : ∀ t offset limit cols,
    Call.Keeps J (ExecState.await (x.source.fetchBatch t offset limit cols))
  log : ∀ level message t, Call.Keeps J (x.log level message t)
  sleep : ∀ seconds, Call.Keeps J (ExecState.await (x.sleep seconds))
  storeBatch : ∀ mappings batch rows, batch ≠ [] → transform mappings batch = .ok rows →
    ∀ t v, Call.Keeps J (x.storeBatch t v batch.length rows)

section parts

variable {J : ExecState W → Prop}

theorem keeps_backOff (hsleep : ∀ seconds, Call.Keeps J (ExecState.await (x.sleep seconds)))
    (again : Bool) (seconds : Nat) : Call.Keeps J (x.backOff again seconds) := by
  cases again with
  | true => exact hsleep seconds
  | false => exact Call.keeps_pure ()

/-- An insert with its retries: `T` holds once one is accepted, `J` as long as none is. -/
theorem wp_insertWithRetry {T : ExecState W → Prop} {table : String} {rows : List Row}
    (hlog : ∀ level message t, Call.Keeps J (x.log level message t))
    (hsleep : ∀ seconds, Call.Keeps J (ExecState.await (x.sleep seconds)))
    (hins : ∀ s, J s → Call.wp (ExecState.await (x.destination.insertBatch table rows none))
      ⟨fun _ => T, fun _ => J, J⟩ s) {s : ExecState W} (hs : J s) :
    Call.wp (x.insertWithRetry table rows)
      ⟨fun ok s' => if ok then T s' else J s', fun _ => J, J⟩ s := by
  have hattempt : ∀ i s, J s → Call.wp (x.insertAttempt table rows i)
      ⟨fun r s' => if r = some true then T s' else J s', fun _ => J, J⟩ s := by
    intro i s hs
    rw [insertAttempt, Call.wp_tryExcept, Call.wp_bind]
    refine Call.wp_mono (hins s hs) (fun _ _ h => h) ?_ (fun _ h => h)
    intro exc s' hs'
    refine Call.wp_seq (hlog _ _ _ s' hs') fun _ s₁ h₁ => ?_
    refine Call.wp_seq (keeps_backOff hsleep _ _ s₁ h₁) fun _ s₂ h₂ => ?_
    exact h₂
  have hattempts : Call.wp (Call.forRange (x.insertAttempt table rows) (x.maxRetries + 1) 0)
      ⟨fun r s' => if r = some true then T s' else J s', fun _ => J, J⟩ s := by
    refine Call.wp_forRange (fun _ => J) (x.maxRetries + 1) ?_ (fun _ h => h) _ 0 s (by omega) hs
    intro i s' _ h
    refine Call.wp_mono (hattempt i s' h) ?_ (fun _ _ h => h) (fun _ h => h)
    intro r s'' hr
    cases r with
    | none => exact hr
    | some ok => exact hr
  refine Call.wp_seq hattempts ?_
  intro r s' hr
  cases r with
  | none =>
    refine Call.wp_seq (hlog _ _ _ s' hr) fun _ s₁ h₁ => ?_
    exact h₁
  | some ok =>
    cases ok with
    | true => exact hr
    | false => exact hr

/-- An insert with its retries keeps what a single insert keeps. -/
theorem keeps_insertWithRetry {table : String} {rows : List Row}
    (hlog : ∀ level message t, Call.Keeps J (x.log level message t))
    (hsleep : ∀ seconds, Call.Keeps J (ExecState.await (x.sleep seconds)))
    (hins : Call.Keeps J (ExecState.await (x.destination.insertBatch table rows none))) :
    Call.Keeps J (x.insertWithRetry table rows) := by
  intro s hs
  refine Call.wp_mono (wp_insertWithRetry hlog hsleep hins hs) ?_ (fun _ _ h => h) (fun _ h => h)
  intro ok s' h
  cases ok with
  | true => exact h
  | false => exact h

theorem keeps_fetchAttempt {tp : MigrationTablePlan} {v : CopyVars}
    (hlog : ∀ level message t, Call.Keeps J (x.log level message t))
    (hsleep : ∀ seconds, Call.Keeps J (ExecState.await (x.sleep seconds)))
    (hfetch : ∀ t offset limit cols,
      Call.Keeps J (ExecState.await (x.source.fetchBatch t offset limit cols))) :
    Call.Keeps J (x.fetchAttempt tp v) := by
  apply Call.Keeps.tryExcept
  · exact (hfetch _ _ _ _).bind fun _ => Call.keeps_pure _
  · intro exc
    exact (hlog _ _ _).bind fun _ => (keeps_backOff hsleep _ _).bind fun _ => Call.keeps_pure _

theorem keeps_ensureTable {tp : MigrationTablePlan}
    (hlog : ∀ level message t, Call.Keeps J (x.log level message t))
    (hcreate : ∀ schema, Call.Keeps J (ExecState.await (x.destination.createTable schema))) :
    Call.Keeps J (x.ensureTable tp) := by
  rw [ensureTable]
  split
  · apply Call.Keeps.tryExcept
    · exact (hcreate _).bind fun _ => (hlog _ _ _).bind fun _ => Call.keeps_pure _
    · exact fun exc => (hlog _ _ _).bind fun _ => Call.keeps_pure _
  · exact Call.keeps_pure _

theorem keeps_clearTable {tp : MigrationTablePlan}
    (hlog : ∀ level message t, Call.Keeps J (x.log level message t))
    (htruncate : ∀ t, Call.Keeps J (ExecState.await (x.destination.truncateTable t))) :
    Call.Keeps J (x.clearTable tp) := by
  rw [clearTable]
  split
  · apply Call.Keeps.tryExcept
    · exact (htruncate _).bind fun _ => hlog _ _ _
    · exact fun exc => hlog _ _ _
  · exact Call.keeps_pure _

section maintained

variable (h : x.Maintains J)
include h

theorem Maintains.copyPass (tp : MigrationTablePlan) (v : CopyVars) :
    Call.Keeps J (x.copyPass tp v) := by
  refine (keeps_fetchAttempt h.log h.sleep h.fetchBatch).bind ?_
  intro r
  cases r with
  | none =>
    by_cases hagain : v.retryCount < x.maxRetries
    · dsimp only
      rw [if_pos hagain]
      exact Call.keeps_pure _
    · dsimp only
      rw [if_neg hagain]
      exact Call.keeps_pure _
  | some batch =>
    cases batch with
    | nil => exact (h.log _ _ _).bind fun _ => Call.keeps_pure _
    | cons row rest =>
      intro s hs
      apply Call.wp_bind_ofExcept
      · exact fun out hout =>
          h.storeBatch tp.columnMappings (row :: rest) out (by simp) hout tp.tableName v s hs
      · exact fun _ _ => hs

theorem Maintains.migrateTable (fuel : Nat) (tp : MigrationTablePlan) :
    Call.Keeps J (x.migrateTable fuel tp) := by
  have hensure : Call.Keeps J (x.ensureTable tp) := keeps_ensureTable h.log h.createTable
  have hclear : Call.Keeps J (x.clearTable tp) := keeps_clearTable h.log h.truncateTable
  refine (h.log _ _ _).bind fun _ => hensure.bind fun created => ?_
  cases created with
  | false => exact Call.keeps_pure _
  | true =>
    refine hclear.bind fun _ => ?_
    by_cases hdata : x.includeData = true
    · rw [if_pos hdata]
      exact Call.Keeps.loop (h.copyPass tp) fuel {}
    · rw [if_neg hdata]
      exact (h.log _ _ _).bind fun _ => Call.keeps_pure _

theorem Maintains.runTable (fuel : Nat) (results : ExecResult) (tp : MigrationTablePlan) :
    Call.Keeps J (x.runTable fuel results tp) := by
  rw [MigrationExecutor.runTable]
  split
  · exact (h.log _ _ _).bind fun _ => Call.keeps_pure _
  · exact (h.migrateTable fuel tp).bind fun _ => Call.keeps_pure _

theorem Maintains.run (fuel : Nat) : Call.Keeps J (x.run fuel) :=
  (Call.Keeps.forEach (h.runTable fuel) _ _).bind fun _ =>
    (Call.keeps_read _).bind fun _ => Call.keeps_pure _

end maintained

end parts

theorem keeps_await {α : Type} {c : Call Exc W α} (hc : Call.Keeps I c) :
    Call.Keeps (fun s : ExecState W => I s.world) (ExecState.await c) :=
  hc.zoom (fun _ h => h) (fun _ _ _ h => h)

/-- What all awaited calls keep of the world, the parts of a run keep. -/
theorem Keeps.maintains (hx : x.Keeps I) : x.Maintains fun s => I s.world := by
  have hlog : ∀ level message t,
      Call.Keeps (fun s : ExecState W => I s.world) (x.log level message t) := by
    intro level message t
    rw [log]
    cases honLog : x.onLog with
    | none => exact Call.keeps_pure ()
    | some f => exact keeps_await (hx.onLog f honLog level message t)
  have hreport : ∀ t n, Call.Keeps (fun s : ExecState W => I s.world) (x.reportProgress t n) := by
    intro t n
    rw [reportProgress]
    cases hprogress : x.onProgress with
    | none => exact Call.keeps_pure ()
    | some f =>
      exact (Call.keeps_read _).bind fun total => keeps_await (hx.onProgress f hprogress _ _ _ _)
  refine ⟨fun schema => keeps_await (hx.destination.createTable schema),
    fun t => keeps_await (hx.destination.truncateTable t),
    fun t offset limit cols => keeps_await (hx.source.fetchBatch t offset limit cols), hlog,
    fun seconds => keeps_await (hx.sleep seconds), ?_⟩
  intro mappings batch rows _ _ t v
  have hins := keeps_await (hx.destination.insertBatch t rows none)
  refine (keeps_insertWithRetry hlog (fun seconds => keeps_await (hx.sleep seconds)) hins).bind ?_
  intro insertOk
  cases insertOk with
  | false => exact Call.keeps_pure _
  | true =>
    have hcount : Call.Keeps (fun s : ExecState W => I s.world)
        (Call.modify (ExecState.addRows batch.length) : Call Exc (ExecState W) Unit) :=
      Call.keeps_modify fun _ h => h
    exact hcount.bind fun _ => (hreport _ _).bind fun _ => Call.keeps_pure _

/-- A run keeps what everything it awaits keeps. -/
theorem keeps_run (hx : x.Keeps I) (fuel : Nat) :
    Call.Keeps (fun s : ExecState W => I s.world) (x.run fuel) := hx.maintains.run fuel

end MigrationExecutor

end DataBridge
