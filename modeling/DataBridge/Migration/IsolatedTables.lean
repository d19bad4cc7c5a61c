import DataBridge.Framework.Returns
import DataBridge.Migration.RunAccounts
import Mathlib.Algebra.Order.BigOperators.Group.List
import Mathlib.Algebra.Order.Ring.Nat

namespace DataBridge

variable {W : Type}

namespace MigrationExecutor

open Call (Returns Ends returns_pure)
open ExecState (await)

/-- The calls for one table all end, its rows never change, and what only reports returns. -/
structure Steady (x : MigrationExecutor W) (rows : List Row) (tp : MigrationTablePlan) : Prop where
  createTable : Ends (fun _ => True) (await (x.destination.createTable tp.sourceSchema))
  truncateTable : Ends (fun _ => True) (await (x.destination.truncateTable tp.tableName))
  fetchBatch : ∀ offset, Ends (· = selectRows rows ⟨selectedColumns tp.columnMappings, tp.tableName,
      x.batchSize, offset⟩) (await (x.source.fetchBatch tp.tableName offset x.batchSize
    (selectedColumns tp.columnMappings)))
  insertBatch : ∀ batch, Ends (fun _ => True) (await (x.destination.insertBatch tp.tableName batch none))
  log : ∀ level message table, Returns (fun _ => True) (x.log level message table)
  reportProgress : ∀ n, Returns (fun _ => True) (x.reportProgress tp.tableName n)
  sleep : ∀ seconds, Returns (fun _ => True) (await (x.sleep seconds))
  batchSize : 0 < x.batchSize

section steady

variable {x : MigrationExecutor W} {rows : List Row} {tp : MigrationTablePlan}
  (h : x.Steady rows tp)
include h

theorem Steady.logAndBackOff {α : Type} {P : Option α → Prop} (hnone : P none)
    (level message : String) (table : Option String) (again : Bool) (seconds : Nat) :
    Returns P (do
      x.log level message table
      x.backOff again seconds
      pure none) := by
  refine (h.log _ _ _).bind fun _ _ => ?_
  have hwait : Returns (fun _ => True) (x.backOff again seconds) := by
    cases again with
    | true => exact h.sleep seconds
    | false => exact returns_pure trivial
  exact hwait.bind fun _ _ => returns_pure hnone

theorem Steady.insertWithRetry (batch : List Row) :
    Returns (fun _ => True) (x.insertWithRetry tp.tableName batch) := by
  have hattempt : ∀ i, Returns (fun _ => True) (x.insertAttempt tp.tableName batch i) := by
    intro i
    refine Ends.tryExcept ?_ fun exc => h.logAndBackOff trivial _ _ _ _ _
    exact (h.insertBatch batch).bind fun _ _ => (returns_pure trivial).ends
  refine (Returns.forRange trivial hattempt _ _).bind fun r _ => ?_
  cases r with
  | some ok => exact returns_pure trivial
  | none => exact (h.log _ _ _).bind fun _ _ => returns_pure trivial

theorem Steady.fetchAttempt (v : CopyVars) :
    Returns (fun r => ∀ batch, r = some batch → batch = selectRows rows
      ⟨selectedColumns tp.columnMappings, tp.tableName, x.batchSize, v.offset⟩)
      (x.fetchAttempt tp v) := by
  refine Ends.tryExcept ?_ fun exc => h.logAndBackOff (by simp) _ _ _ _ _
  refine (h.fetchBatch v.offset).bind fun page hpage => (returns_pure ?_).ends
  intro batch hbatch
  exact (Option.some.inj hbatch).symm.trans hpage

/-- A pass over rows that all transform ends the copy or brings it nearer to its end. -/
theorem Steady.copyPass
    (hrows : ∀ row ∈ rows, ∃ new, transformRow (activeMappings tp.columnMappings) row = .ok new)
    (v : CopyVars) :
    Returns (Pass.Nearer (·.passesLeft rows.length x.maxRetries) (fun _ => True)
      (v.passesLeft rows.length x.maxRetries)) (x.copyPass tp v) := by
  refine (h.fetchAttempt v).bind fun r hr => ?_
  cases r with
  | none =>
    dsimp only
    split
    · exact returns_pure (v.passesLeft_retry _ _ ‹_›)
    · exact returns_pure trivial
  | some batch =>
    have hbatch := hr batch rfl
    cases batch with
    | nil => exact (h.log _ _ _).bind fun _ _ => returns_pure trivial
    | cons row rest =>
      have hlength : (row :: rest).length = min x.batchSize (rows.length - v.offset) := by
        rw [hbatch, selectRows, List.length_map, List.length_take, List.length_drop]
      have hwindow : ∀ r ∈ window rows v.offset x.batchSize,
          ∃ new, transformRow (activeMappings tp.columnMappings) r = .ok new :=
        fun r hr => hrows r (List.mem_of_mem_drop (List.mem_of_mem_take hr))
      obtain ⟨out, hout⟩ := transform_exists hwindow
      have hpage : transform tp.columnMappings (row :: rest) = .ok out := by
        rw [hbatch]
        exact (transform_map_pickColumns _ _).trans hout
      have hpos : 0 < (row :: rest).length := by simp
      dsimp only
      rw [hpage]
      refine Returns.bind (P := fun _ => True) (fun _ => trivial) fun transformed _ => ?_
      refine (h.insertWithRetry transformed).bind fun insertOk _ => ?_
      cases insertOk with
      | false => exact returns_pure trivial
      | true =>
        refine (Call.returns_modify _).bind fun _ _ => ?_
        refine (h.reportProgress _).bind fun _ _ => returns_pure ?_
        exact v.passesLeft_advance _ _ _ _ (by omega) hpos

theorem Steady.migrateTable (hrows : x.includeData = true →
      ∀ row ∈ rows, ∃ new, transformRow (activeMappings tp.columnMappings) row = .ok new)
    {fuel : Nat} (hfuel : (rows.length + 1) * (x.maxRetries + 1) ≤ fuel) :
    Returns (fun _ => True) (x.migrateTable fuel tp) := by
  have hensure : Returns (fun _ => True) (x.ensureTable tp) := by
    rw [ensureTable]
    split
    · refine Ends.tryExcept ?_ fun exc => (h.log _ _ _).bind fun _ _ => returns_pure trivial
      exact h.createTable.bind fun _ _ =>
        ((h.log _ _ _).bind fun _ _ => returns_pure trivial).ends
    · exact returns_pure trivial
  have hclear : Returns (fun _ => True) (x.clearTable tp) := by
    rw [clearTable]
    split
    · refine Ends.tryExcept ?_ fun exc => h.log _ _ _
      exact h.truncateTable.bind fun _ _ => (h.log _ _ _).ends
    · exact returns_pure trivial
  refine (h.log _ _ _).bind fun _ _ => hensure.bind fun created _ => ?_
  cases created with
  | false => exact returns_pure trivial
  | true =>
    refine hclear.bind fun _ _ => ?_
    split
    · rename_i hdata
      refine Returns.loop (·.passesLeft rows.length x.maxRetries)
        (h.copyPass (hrows hdata)) ?_
      rw [Nat.succ_mul] at hfuel
      rw [CopyVars.passesLeft, Nat.sub_zero, Nat.sub_zero]
      omega
    · exact (h.log _ _ _).bind fun _ _ => returns_pure trivial

end steady

end MigrationExecutor

/-- The fault sources of one table. -/
structure TableFaults (L : Type) where
  createTable : TableSchema → Fault L
  truncateTable : Fault L
  fetchBatch : Nat → Nat → Option (List String) → Fault L
  insertBatch : List Row → Fault L

/-- What decides the calls for each table, and everything else. -/
structure Lanes (L E : Type) where
  lanes : String → Traced L
  rest : E

variable {L E α : Type}

/-- A call that answers `a`, unless `f` raises. -/
def Fault.answer (f : Fault L) (a : α) : Call Exc L α := fun l =>
  match f l with
  | (none, l') => (.returned a, l')
  | (some exc, l') => (.raised exc, l')

namespace Lanes

/-- A call for table `t`. -/
def table (t : String) (c : Call Exc (Traced L) α) : Call Exc (Lanes L E) α :=
  Call.zoom (fun w => w.lanes t) (fun l w => { w with lanes := Function.update w.lanes t l }) c

/-- A callback, which returns. -/
def callback (f : E → E) : Call Exc (Lanes L E) Unit :=
  Call.modify fun w => { w with rest := f w.rest }

/-- A provider whose calls each go by their table's own lane, and are recorded there. -/
def provider (p : BaseDatabaseProvider L) : BaseDatabaseProvider (Lanes L E) where
  getTableSchema t := table t ((Traced.provider p).getTableSchema t)
  tableExists t := table t ((Traced.provider p).tableExists t)
  fetchBatch t offset limit cols := table t ((Traced.provider p).fetchBatch t offset limit cols)
  createTable schema := table schema.name ((Traced.provider p).createTable schema)
  insertBatch t rows cols := table t ((Traced.provider p).insertBatch t rows cols)
  truncateTable t := table t ((Traced.provider p).truncateTable t)

end Lanes

/-- A migration whose tables do not meet outside the executor. -/
structure LanedRun (L E : Type) where
  rows : String → List Row
  settings : MigrationSettings
  faults : String → TableFaults L
  onProgress : Option (String → Nat → Nat → Option String → E → E) := none
  onLog : Option (String → String → Option String → E → E) := none
  sleep : Nat → E → E := fun _ e => e

namespace LanedRun

variable (r : LanedRun L E)

def database : BaseDatabaseProvider L where
  getTableSchema _ := Call.raise ⟨.other, "not served"⟩
  tableExists _ := Call.raise ⟨.other, "not served"⟩
  fetchBatch t offset limit cols :=
    ((r.faults t).fetchBatch offset limit cols).answer (selectRows (r.rows t) ⟨cols, t, limit, offset⟩)
  createTable schema := ((r.faults schema.name).createTable schema).answer ()
  insertBatch t rows _ := ((r.faults t).insertBatch rows).answer rows.length
  truncateTable t := (r.faults t).truncateTable.answer ()

def executor (plan : MigrationPlan) : MigrationExecutor (Lanes L E) where
  source := Lanes.provider r.database
  destination := Lanes.provider r.database
  plan := plan
  batchSize := r.settings.batchSize
  includeSchema := r.settings.includeSchema
  includeData := r.settings.includeData
  truncate := r.settings.truncateDestination
  maxRetries := r.settings.maxRetries
  continueOnError := r.settings.continueOnError
  onProgress := r.onProgress.map fun f table inTable total error =>
    Lanes.callback (f table inTable total error)
  onLog := r.onLog.map fun f level message table => Lanes.callback (f level message table)
  sleep seconds := Lanes.callback (r.sleep seconds)

/-- The same migration as one lane sees it: no other table, and no callback. -/
def laneExecutor : MigrationExecutor (Traced L) where
  source := Traced.provider r.database
  destination := Traced.provider r.database
  plan := { tables := [], totalRows := 0 }
  batchSize := r.settings.batchSize
  includeSchema := r.settings.includeSchema
  includeData := r.settings.includeData
  truncate := r.settings.truncateDestination
  maxRetries := r.settings.maxRetries
  continueOnError := r.settings.continueOnError

/-- Table `t` stands in lane `t`, and the other lanes stay as they were. -/
structure InLane (t : String) (others : String → Traced L) (s : ExecState (Lanes L E))
    (u : ExecState (Traced L)) : Prop where
  lane : s.world.lanes t = u.world
  frame : ∀ t', t' ≠ t → s.world.lanes t' = others t'

open Call (Respects respects_pure Returns Ends)
open ExecState (await)

variable {t : String} {others : String → Traced L}

theorem respects_table {t' : String} (ht : t' = t) (c : Call Exc (Traced L) α) :
    Respects (InLane t others) (await (Lanes.table t' c) : Call Exc (ExecState (Lanes L E)) α)
      (await c) := by
  rw [ht]
  intro s u h
  have hrun : c (s.world.lanes t) = c u.world := congrArg c h.lane
  refine ⟨congrArg Prod.fst hrun, ?_, ?_⟩
  · exact (Function.update_self ..).trans (congrArg Prod.snd hrun)
  · exact fun t' ht' => (Function.update_of_ne ht' ..).trans (h.frame t' ht')

theorem respects_callback (f : E → E) :
    Respects (InLane t others) (await (Lanes.callback f) : Call Exc (ExecState (Lanes L E)) Unit)
      (pure ()) :=
  fun _ _ h => ⟨rfl, h.lane, h.frame⟩

/-- What the executor does for a table, it does in the table's lane. -/
theorem related_laneExecutor (plan : MigrationPlan) (tp : MigrationTablePlan)
    (hname : tp.sourceSchema.name = tp.tableName) :
    MigrationExecutor.Related (InLane tp.tableName others) (r.executor plan) r.laneExecutor tp where
  includeSchema := rfl
  includeData := rfl
  truncate := rfl
  maxRetries := rfl
  createTable := respects_table hname _
  truncateTable := respects_table rfl _
  fetchBatch _ _ := respects_table rfl _
  insertBatch _ := respects_table rfl _
  log level message table := by
    rw [MigrationExecutor.log, executor]
    cases honLog : r.onLog with
    | none => exact respects_pure ()
    | some f => exact respects_callback _
  reportProgress n := by
    rw [MigrationExecutor.reportProgress, executor]
    cases hprogress : r.onProgress with
    | none => exact respects_pure ()
    | some f => exact fun _ _ h => ⟨rfl, h.lane, h.frame⟩
  sleep _ := respects_callback _
  addRows _ _ _ h := ⟨h.lane, h.frame⟩

theorem ends_answer (f : Fault L) (a : α) : Ends (· = a) (f.answer a) := by
  intro l
  rw [Call.wp, Fault.answer]
  rcases f l with ⟨_ | exc, l'⟩
  · exact rfl
  · exact trivial

theorem ends_record (call : ProviderCall) {c : Call Exc L α} {P : α → Prop} (h : Ends P c) :
    Ends P (Traced.record call c) := by
  intro s
  have hc := h s.inner
  rw [Call.wp] at hc
  rw [Call.wp, Traced.record]
  rcases hrun : c s.inner with ⟨a | e | _, l⟩ <;> rw [hrun] at hc <;> exact hc

/-- A recorded call of the lanes ends, and answers as the database does. -/
theorem ends_call (t : String) (call : ProviderCall) (f : Fault L) (a : α) :
    Ends (· = a) (await (Lanes.table t (Traced.record call (f.answer a))) :
      Call Exc (ExecState (Lanes L E)) α) :=
  (ends_record call (ends_answer f a)).zoom.zoom

theorem returns_callback (f : E → E) :
    Returns (fun _ => True) (await (Lanes.callback f) : Call Exc (ExecState (Lanes L E)) Unit) :=
  (Call.returns_modify _).zoom

theorem steady_executor (plan : MigrationPlan) (hbatch : 0 < r.settings.batchSize)
    (tp : MigrationTablePlan) : (r.executor plan).Steady (r.rows tp.tableName) tp where
  createTable := (ends_call _ _ _ _).mono fun _ _ => trivial
  truncateTable := (ends_call _ _ _ _).mono fun _ _ => trivial
  fetchBatch _ := ends_call _ _ _ _
  insertBatch _ := (ends_call _ _ _ _).mono fun _ _ => trivial
  log level message table := by
    rw [MigrationExecutor.log, executor]
    cases r.onLog with
    | none => exact Call.returns_pure trivial
    | some f => exact returns_callback _
  reportProgress n := by
    rw [MigrationExecutor.reportProgress, executor]
    cases r.onProgress with
    | none => exact Call.returns_pure trivial
    | some f => exact (Call.returns_read _).bind fun _ _ => returns_callback _
  sleep _ := returns_callback _
  batchSize := hbatch

/-- The lists of the whole result, for the tables named `t`, are those of the lane. -/
structure ListsFor (t : String) (results lane : ExecResult) : Prop where
  completed : results.completedTables.filter (· = t) = lane.completedTables
  skipped : results.skippedTables.filter (· = t) = lane.skippedTables
  failed : results.failedTables.filter (· = t) = lane.failedTables

/-- The tables named `t`, as a plan of their own. -/
def only (t : String) (tables : List MigrationTablePlan) : List MigrationTablePlan :=
  tables.filter (·.tableName = t)

/-- The lane of `t` is where the tables named `t` leave it, when they run there alone. -/
def InStep (fuel : Nat) (w : Lanes L E) (tables : List MigrationTablePlan) (results : ExecResult)
    (s : ExecState (Lanes L E)) : Prop :=
  ∀ t, ∃ lane u, Call.Passed (r.laneExecutor.runTable fuel) (only t tables) {} ⟨w.lanes t, 0⟩ lane u ∧
    s.world.lanes t = u.world ∧ ListsFor t results lane

theorem only_snoc_self (t : String) (tables : List MigrationTablePlan) (tp : MigrationTablePlan)
    (h : tp.tableName = t) : only t (tables ++ [tp]) = only t tables ++ [tp] := by
  simp [only, h]

theorem only_snoc_other (t : String) (tables : List MigrationTablePlan) (tp : MigrationTablePlan)
    (h : tp.tableName ≠ t) : only t (tables ++ [tp]) = only t tables := by
  simp [only, h]

/-- The result with one more table in the list of its verdict. -/
def filed (results : ExecResult) (tableName : String) : Verdict → ExecResult
  | .skipped => { results with skippedTables := results.skippedTables ++ [tableName] }
  | .completed => { results with completedTables := results.completedTables ++ [tableName] }
  | .failed => { results with failedTables := results.failedTables ++ [tableName] }

theorem ListsFor.filed_self {results lane : ExecResult} (h : ListsFor t results lane)
    (v : Verdict) : ListsFor t (filed results t v) (filed lane t v) := by
  obtain ⟨hcompleted, hskipped, hfailed⟩ := h
  cases v <;> constructor <;> simp [filed, hcompleted, hskipped, hfailed]

theorem ListsFor.filed_other {results lane : ExecResult} {tableName : String}
    (h : ListsFor t results lane) (hne : tableName ≠ t) (v : Verdict) :
    ListsFor t (filed results tableName v) lane := by
  obtain ⟨hcompleted, hskipped, hfailed⟩ := h
  cases v <;> constructor <;> simp [filed, hne, hcompleted, hskipped, hfailed]

theorem afterTable_filed {V : Type} {x : MigrationExecutor V} (hcontinue : x.continueOnError = true)
    (results : ExecResult) (tp : MigrationTablePlan) (success : Bool) :
    x.afterTable results tp success =
      .again (filed results tp.tableName (if success then .completed else .failed)) := by
  cases success with
  | true => rfl
  | false => rw [MigrationExecutor.afterTable, if_neg (by decide), if_pos hcontinue]; rfl

section runs

variable (plan : MigrationPlan) (hcontinue : r.settings.continueOnError = true)
  (hbatch : 0 < r.settings.batchSize) {tp : MigrationTablePlan}
  (hname : tp.sourceSchema.name = tp.tableName)
  (hrows : tp.status ≠ .skipped → r.settings.includeData = true → ∀ row ∈ r.rows tp.tableName,
    ∃ new, transformRow (activeMappings tp.columnMappings) row = .ok new)
  {fuel : Nat} (hfuel : copyFuel (r.rows tp.tableName).length r.settings ≤ fuel)
include hcontinue hbatch hname hrows hfuel

/-- A table is dealt with in the whole run as it is in its lane. -/
theorem runTable_lane (results : ExecResult) (s : ExecState (Lanes L E)) : ∃ v s',
    (r.executor plan).runTable fuel results tp s =
      (.returned (.again (filed results tp.tableName v)), s') ∧
    ∀ (lane : ExecResult) (u : ExecState (Traced L)), s.world.lanes tp.tableName = u.world → ∃ u',
      r.laneExecutor.runTable fuel lane tp u =
        (.returned (.again (filed lane tp.tableName v)), u') ∧
      InLane tp.tableName s.world.lanes s' u' := by
  have hsteady := r.steady_executor plan hbatch tp
  have hrelated : MigrationExecutor.Related (InLane tp.tableName s.world.lanes) (r.executor plan)
      r.laneExecutor tp := r.related_laneExecutor plan tp hname
  by_cases hstatus : tp.status = .skipped
  · obtain ⟨_, s', hlog, -⟩ := (hsteady.log "WARNING"
      s!"Skipping table '{tp.tableName}' (incompatible schema)" none).exists s
    refine ⟨.skipped, s', ?_, ?_⟩
    · rw [MigrationExecutor.runTable, if_pos hstatus]
      exact Call.bind_of_returned hlog
    · intro lane u hu
      obtain ⟨-, hin⟩ := hrelated.log "WARNING"
        s!"Skipping table '{tp.tableName}' (incompatible schema)" none s u ⟨hu, fun _ _ => rfl⟩
      rw [hlog] at hin
      refine ⟨u, ?_, hin⟩
      rw [MigrationExecutor.runTable, if_pos hstatus]
      rfl
  · obtain ⟨success, s', hrun, -⟩ := (hsteady.migrateTable (hrows hstatus) hfuel).exists s
    refine ⟨if success then .completed else .failed, s', ?_, ?_⟩
    · rw [MigrationExecutor.runTable_returned _ hstatus hrun]
      rw [afterTable_filed hcontinue]
    · intro lane u hu
      obtain ⟨hend, hin⟩ := hrelated.migrateTable fuel s u ⟨hu, fun _ _ => rfl⟩
      rw [hrun] at hend hin
      have hlane := @MigrationExecutor.runTable_returned _ r.laneExecutor fuel lane tp _ _ _ hstatus
        (Prod.ext hend.symm rfl)
      rw [afterTable_filed hcontinue] at hlane
      exact ⟨_, hlane, hin⟩

end runs

section whole

variable {plan : MigrationPlan} (hcontinue : r.settings.continueOnError = true)
  (hbatch : 0 < r.settings.batchSize) {fuel : Nat}
  (hname : ∀ tp ∈ plan.tables, tp.sourceSchema.name = tp.tableName)
  (hrows : ∀ tp ∈ plan.tables, tp.status ≠ .skipped → r.settings.includeData = true →
    ∀ row ∈ r.rows tp.tableName,
      ∃ new, transformRow (activeMappings tp.columnMappings) row = .ok new)
  (hfuel : ∀ tp ∈ plan.tables, copyFuel (r.rows tp.tableName).length r.settings ≤ fuel)
include hcontinue hbatch hname hrows hfuel

/-- A whole run returns, in step with all its lanes. -/
theorem wp_run_inStep (w : Lanes L E) : Call.wp ((r.executor plan).run fuel)
    ⟨fun results s => r.InStep fuel w plan.tables results s, fun _ _ => False, fun _ => False⟩
    ⟨w, 0⟩ := by
  refine Call.wp_seq (R := fun results s => r.InStep fuel w plan.tables results s) ?_ ?_
  · refine Call.wp_forEach (r.InStep fuel w) plan.tables ?_ (fun _ _ h => h) [] _ _ _ rfl ?_
    · intro pre tp post results s hall h
      have htp : tp ∈ plan.tables := by simp [hall]
      obtain ⟨v, s', hrun, hlane⟩ := r.runTable_lane plan hcontinue hbatch (hname tp htp)
        (hrows tp htp) (hfuel tp htp) results s
      refine Call.wp_of_eq_returned hrun ?_
      intro t
      obtain ⟨lane, u, hpassed, hworld, hlists⟩ := h t
      by_cases ht : tp.tableName = t
      · subst ht
        obtain ⟨u', hnext, hin⟩ := hlane lane u hworld
        rw [only_snoc_self _ _ _ rfl]
        exact ⟨_, u', hpassed.snoc hnext, hin.lane, hlists.filed_self v⟩
      · obtain ⟨_, _, hin⟩ := hlane {} ⟨s.world.lanes tp.tableName, 0⟩ rfl
        rw [only_snoc_other _ _ _ ht]
        exact ⟨lane, u, hpassed, (hin.frame t (Ne.symm ht)).trans hworld, hlists.filed_other ht v⟩
    · exact fun t => ⟨{}, ⟨w.lanes t, 0⟩, ⟨rfl, rfl⟩, rfl, ⟨rfl, rfl, rfl⟩⟩
  · intro results s h t
    obtain ⟨lane, u, hpassed, hworld, hlists⟩ := h t
    exact ⟨lane, u, hpassed, hworld, ⟨hlists.completed, hlists.skipped, hlists.failed⟩⟩

end whole

/-- The state before a run: nothing is recorded yet. -/
def start (env : String → L) (rest : E) : ExecState (Lanes L E) :=
  ⟨{ lanes := fun t => { inner := env t }, rest := rest }, 0⟩

/-- The run returns, and every table sees the calls and ends in the list that it would with no
other table in the plan. -/
def Isolated (plan : MigrationPlan) (fuel : Nat) (env : String → L) (rest : E) : Prop :=
  ∃ results s, (r.executor plan).run fuel (start env rest) = (.returned results, s) ∧
    ∀ t, ∃ alone s', (r.executor { plan with tables := only t plan.tables }).run fuel
        (start env rest) = (.returned alone, s') ∧
      (s.world.lanes t).calls = (s'.world.lanes t).calls ∧ ListsFor t results alone

variable {r}

theorem isolated_of_rows {plan : MigrationPlan} (hcontinue : r.settings.continueOnError = true)
    (hbatch : 0 < r.settings.batchSize) {fuel : Nat}
    (hname : ∀ tp ∈ plan.tables, tp.sourceSchema.name = tp.tableName)
    (hrows : ∀ tp ∈ plan.tables, tp.status ≠ .skipped → r.settings.includeData = true →
      ∀ row ∈ r.rows tp.tableName,
        ∃ new, transformRow (activeMappings tp.columnMappings) row = .ok new)
    (hfuel : ∀ tp ∈ plan.tables, copyFuel (r.rows tp.tableName).length r.settings ≤ fuel)
    (env : String → L) (rest : E) : r.Isolated plan fuel env rest := by
  obtain ⟨results, s, hrun, hlanes⟩ := Call.exists_of_wp
    (r.wp_run_inStep hcontinue hbatch hname hrows hfuel (start env rest).world)
  refine ⟨results, s, hrun, ?_⟩
  intro t
  have honly : ∀ tp ∈ only t plan.tables, tp ∈ plan.tables := fun tp htp =>
    (List.mem_filter.mp htp).1
  have halone : Call.wp ((r.executor { plan with tables := only t plan.tables }).run fuel)
      ⟨fun results s => r.InStep fuel (start env rest).world (only t plan.tables) results s,
        fun _ _ => False, fun _ => False⟩ ⟨(start env rest).world, 0⟩ :=
    r.wp_run_inStep hcontinue hbatch (fun tp htp => hname tp (honly tp htp))
      (fun tp htp => hrows tp (honly tp htp)) (fun tp htp => hfuel tp (honly tp htp)) _
  obtain ⟨alone, s', hrun', hlanes'⟩ := Call.exists_of_wp halone
  refine ⟨alone, s', hrun', ?_⟩
  obtain ⟨lane, u, hpassed, hworld, hlists⟩ := hlanes t
  obtain ⟨lane', u', hpassed', hworld', hlists'⟩ := hlanes' t
  have htwice : only t (only t plan.tables) = only t plan.tables := by
    rw [only, only, List.filter_filter]
    simp
  rw [htwice] at hpassed'
  obtain ⟨hlane, hu⟩ := hpassed.unique hpassed'
  subst hlane hu
  obtain ⟨done, hdone⟩ := Call.wp_of_returned (wp_run_lists _ fuel _) hrun'
  have hall : ∀ v, (namesWith v done).filter (· = t) = namesWith v done := by
    intro v
    refine List.filter_eq_self.mpr fun name hname => ?_
    obtain ⟨tp, htp, heq⟩ := hdone.planned v hname
    simpa [heq] using (List.mem_filter.mp htp).2
  have hcompleted : alone.completedTables.filter (· = t) = alone.completedTables := by
    rw [hdone.lists.completed, hall]
  have hskipped : alone.skippedTables.filter (· = t) = alone.skippedTables := by
    rw [hdone.lists.skipped, hall]
  have hfailed : alone.failedTables.filter (· = t) = alone.failedTables := by
    rw [hdone.lists.failed, hall]
  refine ⟨by rw [hworld, hworld'], ?_, ?_, ?_⟩
  · rw [hlists.completed, ← hlists'.completed, hcompleted]
  · rw [hlists.skipped, ← hlists'.skipped, hskipped]
  · rw [hlists.failed, ← hlists'.failed, hfailed]

section faultless

variable (rows : String → List Row) (settings : MigrationSettings) (plan : MigrationPlan)
  (tp : MigrationTablePlan)

/-- No call raises, and nobody listens. -/
def faultless : LanedRun Unit Unit where
  rows := rows
  settings := settings
  faults _ := {
    createTable := fun _ l => (none, l)
    truncateTable := fun l => (none, l)
    fetchBatch := fun _ _ _ l => (none, l)
    insertBatch := fun _ l => (none, l) }

theorem returns_call (t : String) (call : ProviderCall) (a : α) :
    Returns (· = a) (await (Lanes.table t (Traced.record call
      (Fault.answer (fun l : Unit => (none, l)) a))) : Call Exc (ExecState (Lanes Unit E)) α) :=
  fun _ => rfl

theorem faultless_fetchAttempt (v : CopyVars) :
    Returns (· = some (selectRows (rows tp.tableName) ⟨MigrationExecutor.selectedColumns
      tp.columnMappings, tp.tableName, settings.batchSize, v.offset⟩))
      (((faultless rows settings).executor plan).fetchAttempt tp v) := by
  apply Returns.tryExcept
  exact (returns_call tp.tableName _ _).bind fun batch h => Call.returns_pure (congrArg some h)

theorem faultless_insertWithRetry (batch : List Row) :
    Returns (· = true)
      (((faultless rows settings).executor plan).insertWithRetry tp.tableName batch) := by
  have hattempt : ∀ i, Returns (· = some true)
      (((faultless rows settings).executor plan).insertAttempt tp.tableName batch i) := by
    intro i
    apply Returns.tryExcept
    exact (returns_call tp.tableName _ _).bind fun _ _ => Call.returns_pure rfl
  have hfirst : Returns (· = some true) (Call.forRange
      (((faultless rows settings).executor plan).insertAttempt tp.tableName batch)
      (settings.maxRetries + 1) 0) := by
    refine (hattempt 0).bind fun r hr => ?_
    subst hr
    exact Call.returns_pure rfl
  refine hfirst.bind fun r hr => ?_
  subst hr
  exact Call.returns_pure rfl

/-- The first rows of the table, up to the offset, all transform. -/
def TransformsTo (offset : Nat) : Prop :=
  ∀ row ∈ (rows tp.tableName).take offset,
    ∃ new, transformRow (activeMappings tp.columnMappings) row = .ok new

theorem faultless_copyPass {v : CopyVars} (hv : TransformsTo rows tp v.offset)
    (hbatch : 0 < settings.batchSize) (s : ExecState (Lanes Unit Unit)) :
    Call.wp (((faultless rows settings).executor plan).copyPass tp v) (Post.onReturn fun p _ =>
      match p with
        | .again v' => TransformsTo rows tp v'.offset
        | .done _ => TransformsTo rows tp (rows tp.tableName).length) s := by
  refine (faultless_fetchAttempt rows settings plan tp v).wp_seq (fun r s hr => ?_) s
  subst hr
  generalize hpage : selectRows (rows tp.tableName) ⟨MigrationExecutor.selectedColumns
    tp.columnMappings, tp.tableName, settings.batchSize, v.offset⟩ = page
  have hlength : page.length = (window (rows tp.tableName) v.offset settings.batchSize).length := by
    rw [← hpage]
    exact List.length_map _
  have hwindow := window_length (rows tp.tableName) v.offset settings.batchSize
  cases page with
  | nil =>
    have hend : (rows tp.tableName).length ≤ v.offset := by
      rw [List.length_nil] at hlength
      omega
    have hall : TransformsTo rows tp (rows tp.tableName).length := by
      intro row hrow
      rw [List.take_length] at hrow
      rw [TransformsTo, List.take_of_length_le hend] at hv
      exact hv row hrow
    exact hall
  | cons first rest =>
    refine Call.wp_bind_ofExcept (fun out hout => ?_) (fun _ _ => trivial)
    refine (faultless_insertWithRetry rows settings plan tp out).wp_seq (fun ok s hok => ?_) s
    subst hok
    have hpassed : ∀ row ∈ window (rows tp.tableName) v.offset settings.batchSize,
        ∃ new, transformRow (activeMappings tp.columnMappings) row = .ok new := by
      rw [← hpage] at hout
      have hout' : MigrationExecutor.transform tp.columnMappings
          (window (rows tp.tableName) v.offset settings.batchSize) = .ok out :=
        (MigrationExecutor.transform_map_pickColumns _ _).symm.trans hout
      exact fun row hrow => MigrationExecutor.transformRow_of_transform hout' hrow
    have hnext : TransformsTo rows tp (v.offset + (first :: rest).length) := by
      intro row hrow
      rw [hlength, ← take_append_window] at hrow
      rcases List.mem_append.mp hrow with hold | hnew
      · exact hv row hold
      · exact hpassed row hnew
    exact hnext

theorem faultless_migrateTable (hdata : settings.includeData = true)
    (hbatch : 0 < settings.batchSize) (fuel : Nat) (s : ExecState (Lanes Unit Unit)) :
    Call.wp (((faultless rows settings).executor plan).migrateTable fuel tp)
      (Post.onReturn fun _ _ => TransformsTo rows tp (rows tp.tableName).length) s := by
  have hensure : Returns (· = true) (((faultless rows settings).executor plan).ensureTable tp) := by
    rw [MigrationExecutor.ensureTable]
    split
    · apply Returns.tryExcept
      exact (returns_call tp.sourceSchema.name _ _).bind fun _ _ => Call.returns_pure rfl
    · exact Call.returns_pure rfl
  apply Call.wp_bind_any
  intro _ s
  refine hensure.wp_seq (fun created s hcreated => ?_) s
  subst hcreated
  apply Call.wp_bind_any
  intro _ s
  rw [if_pos (show ((faultless rows settings).executor plan).includeData = true from hdata)]
  refine Call.wp_loop_weak (fun (v : CopyVars) _ => TransformsTo rows tp v.offset) ?_ (fun _ _ _ => trivial)
    fuel {} s (by simp [TransformsTo])
  intro v s hv
  refine Call.wp_mono (faultless_copyPass rows settings plan tp hv hbatch s) ?_
    (fun _ _ h => h) (fun _ h => h)
  intro p s' h
  cases p with
  | again v' => exact h
  | done ok => exact h

/-- A run without a fault returns only if all rows of all tables that are not skipped transform. -/
theorem faultless_run (hcontinue : settings.continueOnError = true)
    (hdata : settings.includeData = true) (hbatch : 0 < settings.batchSize) (fuel : Nat)
    (s : ExecState (Lanes Unit Unit)) :
    Call.wp (((faultless rows settings).executor plan).run fuel) (Post.onReturn fun _ _ =>
      ∀ tp ∈ plan.tables, tp.status ≠ .skipped →
        TransformsTo rows tp (rows tp.tableName).length) s := by
  refine Call.wp_seq (R := fun _ _ => ∀ tp ∈ plan.tables, tp.status ≠ .skipped →
    TransformsTo rows tp (rows tp.tableName).length) ?_ (fun _ _ h => h)
  refine Call.wp_forEach (fun pre _ _ => ∀ tp ∈ pre, tp.status ≠ .skipped →
    TransformsTo rows tp (rows tp.tableName).length) plan.tables ?_ (fun _ _ h => h) [] _ _ _ rfl
    (by simp)
  intro pre tp post results s _ h
  have hnext : (tp.status ≠ .skipped → TransformsTo rows tp (rows tp.tableName).length) →
      ∀ tp' ∈ pre ++ [tp], tp'.status ≠ .skipped →
        TransformsTo rows tp' (rows tp'.tableName).length := by
    intro htp tp' hmem
    rcases List.mem_append.mp hmem with hold | hnew
    · exact h tp' hold
    · rw [List.mem_singleton.mp hnew]
      exact htp
  apply MigrationExecutor.wp_runTable
  · intro hskipped
    exact hnext fun hne => absurd hskipped hne
  · intro _
    refine Call.wp_mono (faultless_migrateTable rows settings plan tp hdata hbatch fuel s) ?_
      (fun _ _ h => h) (fun _ h => h)
    intro success s' htp
    dsimp only
    rw [afterTable_filed hcontinue]
    exact hnext fun _ => htp

end faultless

end LanedRun

/-- With `continue_on_error` the tables are isolated from each other, whatever raises, if and only if
no value of a table to be copied makes `_coerce` raise. -/
theorem continueOnError_isolates_iff (rows : String → List Row) (settings : MigrationSettings)
    (plan : MigrationPlan) (hcontinue : settings.continueOnError = true)
    (hbatch : 0 < settings.batchSize)
    (hname : ∀ tp ∈ plan.tables, tp.sourceSchema.name = tp.tableName) :
    (∀ (L E : Type) (r : LanedRun L E), r.rows = rows → r.settings = settings →
      ∀ fuel, (∀ tp ∈ plan.tables, copyFuel (rows tp.tableName).length settings ≤ fuel) →
        ∀ env rest, r.Isolated plan fuel env rest) ↔
    (settings.includeData = true → ∀ tp ∈ plan.tables, tp.status ≠ .skipped →
      ∀ row ∈ rows tp.tableName, ∀ m ∈ activeMappings tp.columnMappings,
        ¬ CoercionRaises (row.get m.sourceCol) m.destType) := by
  constructor
  · intro h hdata tp htp hstatus row hrow m hm
    have hfuel : ∀ tp ∈ plan.tables, copyFuel (rows tp.tableName).length settings ≤
        (plan.tables.map fun tp => copyFuel (rows tp.tableName).length settings).sum :=
      fun tp htp => List.single_le_sum (fun _ _ => Nat.zero_le _) _ (List.mem_map_of_mem htp)
    obtain ⟨results, s, hrun, -⟩ :=
      h Unit Unit (LanedRun.faultless rows settings) rfl rfl _ hfuel (fun _ => ()) ()
    have hall := Call.wp_of_returned
      (LanedRun.faultless_run rows settings plan hcontinue hdata hbatch _ _) hrun tp htp hstatus
    obtain ⟨new, hnew⟩ := hall row (by rwa [List.take_length])
    exact (coerce_ok_iff _ _).mp (coerce_of_transformRow hnew hm)
  · intro h L E r hr hs fuel hfuel env rest
    subst hr hs
    refine LanedRun.isolated_of_rows hcontinue hbatch hname ?_ hfuel env rest
    intro tp htp hstatus hdata row hrow
    exact transformRow_exists fun m hm =>
      (coerce_ok_iff _ _).mpr (h hdata tp htp hstatus row hrow m hm)

private def oneColumn (tableName destType : String) : MigrationTablePlan where
  tableName := tableName
  sourceSchema := { name := tableName, columns := [] }
  columnMappings := [⟨"v", "v", "DOUBLE", destType, true⟩]

private def twoTables : MigrationPlan :=
  { tables := [oneColumn "readings" "INTEGER", oneColumn "users" "DOUBLE"], totalRows := 2 }

private def keepGoing : MigrationSettings := { batchSize := 1, continueOnError := true }

private def nanRow : Row := Dict.ofList [("v", .float .nan)]

private def textRow : Row := Dict.ofList [("v", .str "1")]

theorem continueOnError_isolates_iff_text :
    (LanedRun.faultless (fun _ => [textRow]) keepGoing).Isolated twoTables 8 (fun _ => ()) () := by
  refine (continueOnError_isolates_iff (fun _ => [textRow]) keepGoing twoTables rfl (by decide)
    (by decide)).mpr ?_ Unit Unit _ rfl rfl 8 (by decide) (fun _ => ()) ()
  intro _ tp htp _ row hrow m hm
  have hcol : ∀ tp ∈ twoTables.tables, ∀ m ∈ activeMappings tp.columnMappings,
      m.sourceCol = "v" := by decide
  rw [List.mem_singleton.mp hrow, hcol tp htp m hm]
  exact (coerce_ok_iff _ _).mp (coerce_str "1" m.destType)

/-- A NaN for an integer column ends the run, and the next table is not reached. -/
theorem nan_ends_run :
    (((LanedRun.faultless (fun _ => [nanRow]) keepGoing).executor twoTables).run 8
      (LanedRun.start (fun _ => ()) ())).1 =
        .raised ⟨.valueError, "cannot convert float NaN to integer"⟩ ∧
    ¬ (LanedRun.faultless (fun _ => [nanRow]) keepGoing).Isolated twoTables 8 (fun _ => ()) () := by
  have hraised : (((LanedRun.faultless (fun _ => [nanRow]) keepGoing).executor twoTables).run 8
      (LanedRun.start (fun _ => ()) ())).1 =
        .raised ⟨.valueError, "cannot convert float NaN to integer"⟩ := rfl
  refine ⟨hraised, ?_⟩
  intro h
  obtain ⟨results, s, hrun, -⟩ := h
  rw [hrun] at hraised
  cases hraised

end DataBridge
