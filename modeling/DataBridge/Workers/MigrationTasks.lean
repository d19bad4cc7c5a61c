import DataBridge.Migration.Executor
import DataBridge.Migration.Planner
import DataBridge.Models.Migration
import DataBridge.Utils.Helpers

namespace DataBridge

/-- What the task broadcasts to the sockets of its migration. -/
inductive Event where
  | progress (status : MigrationStatus) (progress : Int) (currentTable : String)
      (processedRows totalRows : Nat) (speed estimatedTimeRemaining : Int)
  | log (level message : String) (tableName : Option String)
  | completed (result : ExecResult)
  | failed (error : String)
  deriving DecidableEq, Repr

/-- The application database, the broadcasts so far (by migration id), and the world outside. -/
structure TaskState (W : Type) where
  app : AppDb
  events : List (String × Event) := []
  world : W

/-- What `_execute` uses from outside this module: the JSON and credential codecs, the provider
registry, the reachability of the application database and of the sockets, and the clocks. -/
structure TaskContext (Cr W : Type) where
  loadsTables : String → Except Exc (List String)
  loadsSettings : String → Except Exc MigrationSettings
  decryptCredentials : String → Except Exc Cr
  databaseType : Cr → Option String
  getProvider : String → Cr → Except Exc (ManagedProvider W)
  appDb : Call Exc W Unit := pure ()
  sockets : Call Exc W Unit := pure ()
  now : Call Exc W Nat
  elapsed : Call Exc W ℚ
  newUuid : Call Exc W String
  sleep : Nat → Call Exc W Unit := fun _ => pure ()

/-- What is read from the record before it is marked RUNNING. -/
structure Job (Cr : Type) where
  tables : List String
  migSettings : MigrationSettings
  srcCreds : Cr
  dstCreds : Cr

/-- The record as the first session of `_execute` leaves it. -/
def runningRecord (record : Migration) (now : Nat) : Migration :=
  { record with status := .RUNNING, startedAt := some now }

/-- The record as `on_progress` leaves it. -/
def progressRecord (record : Migration) (tableName : String) (totalProcessed : Nat) : Migration :=
  { record with processedRows := totalProcessed, currentTable := some tableName }

/-- The record as `_mark_failed` leaves it. -/
def failedRecord (record : Migration) (error : String) (now : Nat) : Migration :=
  { record with
    status := .FAILED
    errorMessage := some (PyText.first 2000 error)
    completedAt := some now }

/-- The record as the last session of `_execute` leaves it. -/
def finalRecord (record : Migration) (result : ExecResult) (now : Nat) : Migration :=
  { record with
    status := if result.failedTables = [] then .COMPLETED else .FAILED
    completedTables := result.completedTables.length
    processedRows := result.totalRowsMigrated
    completedAt := some now
    currentTable := none
    errorMessage :=
      if result.failedTables = [] then record.errorMessage
      else some s!"Tables failed: {PyText.commaJoin result.failedTables}" }

namespace TaskContext

variable {Cr W α : Type} (x : TaskContext Cr W)

def outside (c : Call Exc W α) : Call Exc (TaskState W) α :=
  Call.zoom TaskState.world (fun w s => { s with world := w }) c

/-- `select(Migration).where(Migration.id == migration_id)`, then `scalar_one_or_none`. -/
def selectMigration (migrationId : String) : Call Exc (TaskState W) (Option Migration) := do
  outside x.appDb
  Call.read fun s => s.app.migrations.get? migrationId

def selectOne (migrationId : String) : Call Exc (TaskState W) Migration := do
  match ← x.selectMigration migrationId with
  | some record => pure record
  | none => Call.raise ⟨.other, "No row was found when one was required"⟩

def commit (change : AppDb → AppDb) : Call Exc (TaskState W) Unit := do
  outside x.appDb
  Call.modify fun s => { s with app := change s.app }

def commitMigration (migrationId : String) (record : Migration) : Call Exc (TaskState W) Unit :=
  x.commit fun app => { app with migrations := app.migrations.set migrationId record }

def broadcast (migrationId : String) (event : Event) : Call Exc (TaskState W) Unit := do
  outside x.sockets
  Call.modify fun s => { s with events := s.events ++ [(migrationId, event)] }

def writeFailed (migrationId error : String) (found : Option Migration) :
    Call Exc (TaskState W) Unit :=
  match found with
  | some record => do
    let now ← outside x.now
    x.commitMigration migrationId (failedRecord record error now)
  | none => pure ()

/-- `_mark_failed`. -/
def markFailed (migrationId error : String) : Call Exc (TaskState W) Unit := do
  let found ← x.selectMigration migrationId
  x.writeFailed migrationId error found
  x.broadcast migrationId (.failed error)

/-- `value or default`, for a text column. -/
def orText (value : Option String) (default : String) : String :=
  match value with
  | none | some "" => default
  | some text => text

/-- The first session of `_execute`: load the configuration and mark the record RUNNING. -/
def markRunning (migrationId : String) : Call Exc (TaskState W) (Job Cr) := do
  match ← x.selectMigration migrationId with
  | none => Call.raise ⟨.valueError, s!"Migration {migrationId} not found in DB"⟩
  | some record => do
    let tables ← Call.ofExcept (x.loadsTables (orText record.tablesConfig "[]"))
    let migSettings ← Call.ofExcept (x.loadsSettings (orText record.settings "{}"))
    let srcCreds ← Call.ofExcept (x.decryptCredentials record.sourceConnection)
    let dstCreds ← Call.ofExcept (x.decryptCredentials record.destinationConnection)
    let now ← outside x.now
    x.commitMigration migrationId (runningRecord record now)
    pure { tables, migSettings, srcCreds, dstCreds }

def onProgress (migrationId : String) (plan : MigrationPlan) : ProgressCallback (TaskState W) :=
  fun tableName _ totalProcessed _ => do
    let elapsed ← outside x.elapsed
    let record ← x.selectOne migrationId
    x.commitMigration migrationId (progressRecord record tableName totalProcessed)
    x.broadcast migrationId (.progress .RUNNING (calculateProgress totalProcessed plan.totalRows)
      tableName totalProcessed plan.totalRows (calculateSpeed totalProcessed elapsed)
      (estimateTimeRemaining totalProcessed plan.totalRows elapsed))

def onLog (migrationId : String) : LogCallback (TaskState W) := fun level message tableName => do
  let id ← outside x.newUuid
  outside x.appDb
  let createdAt ← outside x.now
  Call.modify fun s => { s with app := { s.app with
    logs := s.app.logs ++ [{ id, migrationId, level, message, tableName, createdAt }] } }
  x.broadcast migrationId (.log level message tableName)

def inTask (p : ManagedProvider W) : BaseDatabaseProvider (TaskState W) :=
  p.toBaseDatabaseProvider.within TaskState.world (fun w s => { s with world := w })

def executor (migrationId : String) (src dst : ManagedProvider W) (migSettings : MigrationSettings)
    (plan : MigrationPlan) : MigrationExecutor (TaskState W) where
  source := inTask src
  destination := inTask dst
  plan := plan
  batchSize := migSettings.batchSize
  includeSchema := migSettings.includeSchema
  includeData := migSettings.includeData
  truncate := migSettings.truncateDestination
  maxRetries := migSettings.maxRetries
  continueOnError := migSettings.continueOnError
  onProgress := some (x.onProgress migrationId plan)
  onLog := some (x.onLog migrationId)
  sleep seconds := outside (x.sleep seconds)

/-- A new executor starts with its counter at 0. -/
def runExecutor (fuel : Nat) (executor : MigrationExecutor (TaskState W)) :
    Call Exc (TaskState W) ExecResult :=
  Call.zoom (fun s => { world := s }) (fun e _ => e.world) (executor.run fuel)

/-- The body of `async with src_provider, dst_provider`. -/
def planAndRun (fuel : Nat) (migrationId : String) (job : Job Cr) (src dst : ManagedProvider W) :
    Call Exc (TaskState W) ExecResult := do
  let plan ← MigrationPlanner.buildPlan ⟨inTask src, inTask dst, job.tables⟩
  runExecutor fuel (x.executor migrationId src dst job.migSettings plan)

/-- `async with p: body`. -/
def connected (p : ManagedProvider W) (body : Call Exc (TaskState W) α) :
    Call Exc (TaskState W) α := do
  outside p.connect
  Call.tryFinally body (outside p.disconnect)

/-- The text each of the two handlers hands to `_mark_failed`. -/
def failureText (exc : Exc) : String :=
  match exc.kind with
  | .softTimeLimitExceeded => "Task exceeded time limit and was terminated."
  | _ => exc.text

/-- The handlers around planning and execution: the record is marked FAILED, then the exception
goes on. -/
def failAndRaise (migrationId : String) (exc : Exc) : Call Exc (TaskState W) α := do
  x.markFailed migrationId (failureText exc)
  Call.raise exc

/-- From the check of the database types to the end of the run. -/
def migrate (fuel : Nat) (migrationId : String) (job : Job Cr) :
    Call Exc (TaskState W) ExecResult := do
  match orText (x.databaseType job.srcCreds) "", orText (x.databaseType job.dstCreds) "" with
  | "", _ | _, "" => Call.raise ⟨.valueError,
      "database_type missing from stored credentials — cannot start migration."⟩
  | srcType, dstType => do
    let src ← Call.ofExcept (x.getProvider srcType job.srcCreds)
    let dst ← Call.ofExcept (x.getProvider dstType job.dstCreds)
    Call.tryExcept
      (connected src (connected dst (x.planAndRun fuel migrationId job src dst)))
      (x.failAndRaise migrationId)

def finalise (migrationId : String) (result : ExecResult) : Call Exc (TaskState W) Unit := do
  let record ← x.selectOne migrationId
  let now ← outside x.now
  x.commitMigration migrationId (finalRecord record result now)

/-- `_execute`. -/
def execute (fuel : Nat) (migrationId : String) : Call Exc (TaskState W) ExecResult := do
  let job ← x.markRunning migrationId
  let result ← x.migrate fuel migrationId job
  x.finalise migrationId result
  x.broadcast migrationId (.completed result)
  pure result

end TaskContext

end DataBridge
