import DataBridge.Migration.Mapper
import DataBridge.Providers.BaseProvider

namespace DataBridge

/-- (table_name, rows_done_in_table, rows_done_total, error_msg). -/
abbrev ProgressCallback (W : Type) := String → Nat → Nat → Option String → Call Exc W Unit

/-- (level, message, table_name). -/
abbrev LogCallback (W : Type) := String → String → Option String → Call Exc W Unit

structure MigrationExecutor (W : Type) where
  source : BaseDatabaseProvider W
  destination : BaseDatabaseProvider W
  plan : MigrationPlan
  batchSize : Nat := 1000
  includeSchema : Bool := true
  includeData : Bool := true
  truncate : Bool := false
  maxRetries : Nat := 3
  continueOnError : Bool := false
  onProgress : Option (ProgressCallback W) := none
  onLog : Option (LogCallback W) := none
  /-- `asyncio.sleep`, in seconds. -/
  sleep : Nat → Call Exc W Unit := fun _ => pure ()

/-- The world together with the executor's own counter. -/
@[ext] structure ExecState (W : Type) where
  world : W
  totalRowsProcessed : Nat := 0

structure ExecResult where
  completedTables : List String := []
  skippedTables : List String := []
  failedTables : List String := []
  totalRowsMigrated : Nat := 0
  deriving DecidableEq, Repr

/-- The local variables of the copy loop. -/
structure CopyVars where
  offset : Nat := 0
  rowsForTable : Nat := 0
  retryCount : Nat := 0
  deriving DecidableEq, Repr

namespace ExecState

variable {W α : Type}

/-- Await a call that does not touch the executor. -/
def await (c : Call Exc W α) : Call Exc (ExecState W) α :=
  Call.zoom world (fun w s => { s with world := w }) c

def addRows (count : Nat) (s : ExecState W) : ExecState W :=
  { s with totalRowsProcessed := s.totalRowsProcessed + count }

end ExecState

namespace MigrationExecutor

variable {W : Type} (x : MigrationExecutor W)

open ExecState (await addRows)

def log (level message : String) (table : Option String := none) : Call Exc (ExecState W) Unit :=
  match x.onLog with
  | some onLog => await (onLog level message table)
  | none => pure ()

/-- The wait before another try; there is none after the last. -/
def backOff (again : Bool) (seconds : Nat) : Call Exc (ExecState W) Unit :=
  if again then await (x.sleep seconds) else pure ()

def insertAttempt (table : String) (rows : List Row) (attempt : Nat) :
    Call Exc (ExecState W) (Option Bool) :=
  Call.tryExcept
    (do
      let _ ← await (x.destination.insertBatch table rows none)
      pure (some true))
    (fun exc => do
      x.log "WARNING" (s!"Insert attempt {attempt + 1}/{x.maxRetries + 1} failed for " ++
        s!"'{table}': {exc.text}") table
      x.backOff (attempt < x.maxRetries) (2 ^ attempt)
      pure none)

def insertWithRetry (table : String) (rows : List Row) : Call Exc (ExecState W) Bool := do
  match ← Call.forRange (x.insertAttempt table rows) (x.maxRetries + 1) 0 with
  | some ok => pure ok
  | none => do
    x.log "ERROR" s!"All insert retries exhausted for table '{table}'" table
    pure false

/-- The batch as it is handed to `insert_batch`. -/
def transform (mappings : List ColumnMapping) (batch : List Row) : Except Exc (List Row) :=
  if activeMappings mappings = [] then .ok batch else applyMappings batch mappings

def selectedColumns (mappings : List ColumnMapping) : Option (List String) :=
  if activeMappings mappings = [] then none
  else some ((activeMappings mappings).map (·.sourceCol))

def reportProgress (table : String) (rowsForTable : Nat) : Call Exc (ExecState W) Unit :=
  match x.onProgress with
  | some onProgress => do
    let total ← Call.read ExecState.totalRowsProcessed
    await (onProgress table rowsForTable total none)
  | none => pure ()

/-- The fetch of a pass, `none` if it raised. -/
def fetchAttempt (tp : MigrationTablePlan) (v : CopyVars) :
    Call Exc (ExecState W) (Option (List Row)) :=
  Call.tryExcept
    (do
      let batch ← await (x.source.fetchBatch tp.tableName v.offset x.batchSize
        (selectedColumns tp.columnMappings))
      pure (some batch))
    (fun exc => do
      x.log "ERROR" (s!"Failed to fetch batch at offset {v.offset} for " ++
        s!"'{tp.tableName}': {exc.text}") tp.tableName
      x.backOff (v.retryCount < x.maxRetries) (2 ^ (v.retryCount + 1))
      pure none)

/-- One pass of the copy loop: fetch, transform, insert, advance. -/
def copyPass (tp : MigrationTablePlan) (v : CopyVars) :
    Call Exc (ExecState W) (Pass CopyVars Bool) := do
  match ← x.fetchAttempt tp v with
  | none =>
    if v.retryCount < x.maxRetries then
      pure (.again { v with retryCount := v.retryCount + 1 })
    else pure (.done false)
  | some [] => do
    x.log "INFO" s!"Completed '{tp.tableName}': {v.rowsForTable} rows migrated" tp.tableName
    pure (.done true)
  | some batch => do
    let transformed ← Call.ofExcept (transform tp.columnMappings batch)
    let insertOk ← x.insertWithRetry tp.tableName transformed
    if insertOk then do
      let count := batch.length
      Call.modify (addRows count)
      x.reportProgress tp.tableName (v.rowsForTable + count)
      pure (.again {
        offset := v.offset + count
        rowsForTable := v.rowsForTable + count
        retryCount := 0 })
    else pure (.done false)

def ensureTable (tp : MigrationTablePlan) : Call Exc (ExecState W) Bool :=
  if x.includeSchema then
    Call.tryExcept
      (do
        await (x.destination.createTable tp.sourceSchema)
        x.log "INFO" s!"Table '{tp.tableName}' ensured in destination" tp.tableName
        pure true)
      (fun exc => do
        x.log "ERROR" s!"Failed to create table '{tp.tableName}': {exc.text}" tp.tableName
        pure false)
  else pure true

def clearTable (tp : MigrationTablePlan) : Call Exc (ExecState W) Unit :=
  if x.truncate then
    Call.tryExcept
      (do
        await (x.destination.truncateTable tp.tableName)
        x.log "INFO" s!"Truncated destination table '{tp.tableName}'" tp.tableName)
      (fun exc => do
        x.log "WARNING" s!"Could not truncate '{tp.tableName}': {exc.text}" tp.tableName)
  else pure ()

/-- `_migrate_table`. Its `while True` gets `fuel` passes; the final log of a completed table is
in the pass that sees the empty batch. -/
def migrateTable (fuel : Nat) (tp : MigrationTablePlan) : Call Exc (ExecState W) Bool := do
  x.log "INFO" s!"Starting migration of table '{tp.tableName}'" tp.tableName
  let created ← x.ensureTable tp
  if created then do
    x.clearTable tp
    if x.includeData then Call.loop (x.copyPass tp) fuel {}
    else do
      x.log "INFO" s!"Skipping data copy for '{tp.tableName}' (include_data=false)" tp.tableName
      pure true
  else pure false

/-- The lists of the result after a table was migrated, and whether the loop goes on. -/
def afterTable (results : ExecResult) (tp : MigrationTablePlan) (success : Bool) :
    Pass ExecResult ExecResult :=
  if success then .again { results with completedTables := results.completedTables ++ [tp.tableName] }
  else
    let results := { results with failedTables := results.failedTables ++ [tp.tableName] }
    if x.continueOnError then .again results else .done results

/-- The body of the loop over the plan's tables. -/
def runTable (fuel : Nat) (results : ExecResult) (tp : MigrationTablePlan) :
    Call Exc (ExecState W) (Pass ExecResult ExecResult) :=
  if tp.status = .skipped then do
    let results := { results with skippedTables := results.skippedTables ++ [tp.tableName] }
    x.log "WARNING" s!"Skipping table '{tp.tableName}' (incompatible schema)"
    pure (.again results)
  else do
    let success ← x.migrateTable fuel tp
    pure (x.afterTable results tp success)

def run (fuel : Nat) : Call Exc (ExecState W) ExecResult := do
  let results ← Call.forEach (x.runTable fuel) x.plan.tables {}
  let total ← Call.read ExecState.totalRowsProcessed
  pure { results with totalRowsMigrated := total }

theorem wp_runTable {fuel : Nat} {results : ExecResult} {tp : MigrationTablePlan}
    {Q : Post Exc (ExecState W) (Pass ExecResult ExecResult)} {s : ExecState W}
    (hskip : tp.status = .skipped →
      Call.wp (x.log "WARNING" s!"Skipping table '{tp.tableName}' (incompatible schema)")
        ⟨fun _ => Q.returned (.again
          { results with skippedTables := results.skippedTables ++ [tp.tableName] }),
          Q.raised, Q.exhausted⟩ s)
    (htable : tp.status ≠ .skipped → Call.wp (x.migrateTable fuel tp)
      ⟨fun success => Q.returned (x.afterTable results tp success), Q.raised, Q.exhausted⟩ s) :
    Call.wp (x.runTable fuel results tp) Q s := by
  rw [runTable]
  split
  · rename_i h
    rw [Call.wp_bind]
    exact hskip h
  · rename_i h
    rw [Call.wp_bind]
    exact htable h

theorem runTable_returned {fuel : Nat} {results : ExecResult} {tp : MigrationTablePlan}
    {s s' : ExecState W} {success : Bool} (hstatus : tp.status ≠ .skipped)
    (h : x.migrateTable fuel tp s = (.returned success, s')) :
    x.runTable fuel results tp s = (.returned (x.afterTable results tp success), s') := by
  rw [runTable]
  rw [if_neg hstatus]
  exact Call.bind_of_returned h

end MigrationExecutor

end DataBridge
