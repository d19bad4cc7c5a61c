import DataBridge.Framework.Respects
import DataBridge.Migration.Executor

namespace DataBridge.MigrationExecutor

variable {W V : Type}

open Call (Respects respects_pure)
open ExecState (await addRows)

/-- Two executors with the same settings whose calls for one table end alike. -/
structure Related (R : ExecState W → ExecState V → Prop) (x : MigrationExecutor W)
    (y : MigrationExecutor V) (tp : MigrationTablePlan) : Prop where
  includeSchema : x.includeSchema = y.includeSchema
  includeData : x.includeData = y.includeData
  truncate : x.truncate = y.truncate
  maxRetries : x.maxRetries = y.maxRetries
  createTable : Respects R (await (x.destination.createTable tp.sourceSchema))
    (await (y.destination.createTable tp.sourceSchema))
  truncateTable : Respects R (await (x.destination.truncateTable tp.tableName))
    (await (y.destination.truncateTable tp.tableName))
  fetchBatch : ∀ offset cols,
    Respects R (await (x.source.fetchBatch tp.tableName offset x.batchSize cols))
      (await (y.source.fetchBatch tp.tableName offset y.batchSize cols))
  insertBatch : ∀ rows, Respects R (await (x.destination.insertBatch tp.tableName rows none))
    (await (y.destination.insertBatch tp.tableName rows none))
  log : ∀ level message table, Respects R (x.log level message table) (y.log level message table)
  reportProgress : ∀ rows, Respects R (x.reportProgress tp.tableName rows)
    (y.reportProgress tp.tableName rows)
  sleep : ∀ seconds, Respects R (await (x.sleep seconds)) (await (y.sleep seconds))
  addRows : ∀ count s t, R s t → R (addRows count s) (addRows count t)

section steps

variable {R : ExecState W → ExecState V → Prop} {x : MigrationExecutor W} {y : MigrationExecutor V}
  {tp : MigrationTablePlan} (h : Related R x y tp)
include h

theorem Related.backOff (again : Bool) (seconds : Nat) :
    Respects R (x.backOff again seconds) (y.backOff again seconds) := by
  cases again with
  | true => exact h.sleep seconds
  | false => exact respects_pure ()

theorem Related.insertWithRetry (rows : List Row) :
    Respects R (x.insertWithRetry tp.tableName rows) (y.insertWithRetry tp.tableName rows) := by
  have hattempt : ∀ i, Respects R (x.insertAttempt tp.tableName rows i)
      (y.insertAttempt tp.tableName rows i) := by
    intro i
    apply Respects.tryExcept
    · exact (h.insertBatch rows).bind fun _ => respects_pure _
    · intro exc
      rw [h.maxRetries]
      exact (h.log _ _ _).bind fun _ => (h.backOff _ _).bind fun _ => respects_pure _
  rw [MigrationExecutor.insertWithRetry, MigrationExecutor.insertWithRetry, h.maxRetries]
  refine (Respects.forRange hattempt _ _).bind ?_
  intro r
  cases r with
  | some ok => exact respects_pure ok
  | none => exact (h.log _ _ _).bind fun _ => respects_pure _

theorem Related.fetchAttempt (v : CopyVars) :
    Respects R (x.fetchAttempt tp v) (y.fetchAttempt tp v) := by
  rw [MigrationExecutor.fetchAttempt, MigrationExecutor.fetchAttempt, h.maxRetries]
  apply Respects.tryExcept
  · exact (h.fetchBatch _ _).bind fun _ => respects_pure _
  · intro exc
    exact (h.log _ _ _).bind fun _ => (h.backOff _ _).bind fun _ => respects_pure _

theorem Related.copyPass (v : CopyVars) : Respects R (x.copyPass tp v) (y.copyPass tp v) := by
  rw [MigrationExecutor.copyPass, MigrationExecutor.copyPass, h.maxRetries]
  refine (h.fetchAttempt v).bind ?_
  intro r
  cases r with
  | none =>
    dsimp only
    split
    · exact respects_pure _
    · exact respects_pure _
  | some batch =>
    cases batch with
    | nil => exact (h.log _ _ _).bind fun _ => respects_pure _
    | cons row rows =>
      refine (Call.respects_ofExcept _).bind fun transformed => ?_
      refine (h.insertWithRetry transformed).bind fun insertOk => ?_
      cases insertOk with
      | false => exact respects_pure _
      | true =>
        have hcount := Call.respects_modify (ε := Exc) (h.addRows (row :: rows).length)
        exact hcount.bind fun _ => (h.reportProgress _).bind fun _ => respects_pure _

theorem Related.ensureTable : Respects R (x.ensureTable tp) (y.ensureTable tp) := by
  rw [MigrationExecutor.ensureTable, MigrationExecutor.ensureTable, h.includeSchema]
  split
  · apply Respects.tryExcept
    · exact h.createTable.bind fun _ => (h.log _ _ _).bind fun _ => respects_pure _
    · exact fun exc => (h.log _ _ _).bind fun _ => respects_pure _
  · exact respects_pure _

theorem Related.clearTable : Respects R (x.clearTable tp) (y.clearTable tp) := by
  rw [MigrationExecutor.clearTable, MigrationExecutor.clearTable, h.truncate]
  split
  · apply Respects.tryExcept
    · exact h.truncateTable.bind fun _ => h.log _ _ _
    · exact fun exc => h.log _ _ _
  · exact respects_pure _

/-- The two executors migrate the table alike. -/
theorem Related.migrateTable (fuel : Nat) :
    Respects R (x.migrateTable fuel tp) (y.migrateTable fuel tp) := by
  refine (h.log _ _ _).bind fun _ => h.ensureTable.bind fun created => ?_
  cases created with
  | false => exact respects_pure _
  | true =>
    refine h.clearTable.bind fun _ => ?_
    rw [h.includeData]
    split
    · exact Respects.loop h.copyPass fuel {}
    · exact (h.log _ _ _).bind fun _ => respects_pure _

end steps

/-- Executors of one plan that are related on all its tables run alike. -/
theorem respects_run {R : ExecState W → ExecState V → Prop} {x : MigrationExecutor W}
    {y : MigrationExecutor V} (hplan : x.plan.tables = y.plan.tables)
    (hcontinue : x.continueOnError = y.continueOnError)
    (h : ∀ tp ∈ x.plan.tables, Related R x y tp)
    (hlog : ∀ level message table, Respects R (x.log level message table) (y.log level message table))
    (htotal : ∀ s t, R s t → s.totalRowsProcessed = t.totalRowsProcessed) (fuel : Nat) :
    Respects R (x.run fuel) (y.run fuel) := by
  have htable : ∀ tp ∈ x.plan.tables, ∀ results,
      Respects R (x.runTable fuel results tp) (y.runTable fuel results tp) := by
    intro tp htp results
    rw [runTable, runTable]
    split
    · exact (hlog _ _ _).bind fun _ => respects_pure _
    · refine ((h tp htp).migrateTable fuel).bind fun success => ?_
      have hafter : x.afterTable results tp success = y.afterTable results tp success := by
        rw [afterTable, afterTable, hcontinue]
      rw [hafter]
      exact respects_pure _
  have hread : Respects R (Call.read ExecState.totalRowsProcessed : Call Exc (ExecState W) Nat)
      (Call.read ExecState.totalRowsProcessed) :=
    fun s t hst => ⟨congrArg Outcome.returned (htotal s t hst), hst⟩
  rw [run, run, ← hplan]
  refine Respects.bind ?_ fun results => hread.bind fun total => respects_pure _
  exact Respects.forEach_mem htable {}

end DataBridge.MigrationExecutor
