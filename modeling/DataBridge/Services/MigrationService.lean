import DataBridge.Core.Database
import DataBridge.Utils.Helpers

namespace DataBridge

/-- The statuses `start_migration` starts from. -/
def MigrationStatus.startable (status : MigrationStatus) : Bool :=
  status = .PENDING ∨ status = .FAILED

/-- A record that has passed the check of `start_migration`. -/
abbrev Startable := { record : Migration // record.status.startable = true }

/-- A record that has passed the check of `cancel_migration`. -/
abbrev Cancellable := { record : Migration // record.status = .RUNNING }

def migrationNotFound (migrationId : String) : Exc :=
  ⟨.httpException, s!"404: Migration '{migrationId}' not found."⟩

def notStartable (record : Migration) : Exc :=
  ⟨.valueError, s!"Migration is in '{record.status.value}' state and cannot be started."⟩

def notCancellable : Exc := ⟨.valueError, "Only running migrations can be cancelled."⟩

/-- The check of `start_migration`. -/
def checkStart (record : Migration) : Except Exc Startable :=
  if h : record.status.startable = true then .ok ⟨record, h⟩ else .error (notStartable record)

/-- The check of `cancel_migration`. -/
def checkCancel (record : Migration) : Except Exc Cancellable :=
  if h : record.status = .RUNNING then .ok ⟨record, h⟩ else .error notCancellable

/-- What `start_migration` makes of the record it has read. -/
def startedRecord (record : Migration) (taskId : String) (now : Nat) : Migration :=
  { record with celeryTaskId := some taskId, status := .RUNNING, startedAt := some now }

/-- What `cancel_migration` makes of the record it has read. -/
def cancelledRecord (record : Migration) (now : Nat) : Migration :=
  { record with status := .CANCELLED, completedAt := some now }

/-- The record that `create_migration` adds. -/
def createdRecord (sourceConnection destinationConnection : String)
    (tablesConfig settings : Option String) (totalTables totalRows : Nat) : Migration where
  status := .PENDING
  sourceConnection := sourceConnection
  destinationConnection := destinationConnection
  tablesConfig := tablesConfig
  settings := settings
  totalTables := totalTables
  totalRows := totalRows

structure MigrationStatusResponse where
  id : String
  status : MigrationStatus
  progress : Int
  currentTable : Option String
  processedRows : Nat
  totalRows : Nat
  speed : Int
  estimatedTimeRemaining : Int
  startedAt : Option Nat
  completedAt : Option Nat
  errorMessage : Option String
  deriving DecidableEq, Repr

/-- The `elapsed` of `get_status`, in seconds; instants are in microseconds. -/
def elapsedSeconds (record : Migration) (now : Nat) : ℚ :=
  match record.startedAt with
  | some startedAt => ((record.completedAt.getD now : ℚ) - startedAt) / 1000000
  | none => 0

/-- The response of `get_status` for the record it has read. -/
def getStatus (migrationId : String) (record : Migration) (now : Nat) : MigrationStatusResponse :=
  let elapsed := elapsedSeconds record now
  { id := migrationId
    status := record.status
    progress := calculateProgress record.processedRows record.totalRows
    currentTable := record.currentTable
    processedRows := record.processedRows
    totalRows := record.totalRows
    speed := calculateSpeed record.processedRows elapsed
    estimatedTimeRemaining := estimateTimeRemaining record.processedRows record.totalRows elapsed
    startedAt := record.startedAt
    completedAt := record.completedAt
    errorMessage := record.errorMessage }

theorem Startable.status_ne (record : Startable) : MigrationStatus.RUNNING ≠ record.1.status := by
  intro h
  have hs := record.2
  rw [← h] at hs
  cases hs

/-- A start commits RUNNING whatever was committed since it read the record. -/
theorem flush_startedRecord_status (record : Startable) (taskId : String) (now : Nat)
    (committed : Migration) :
    (record.1.flush (startedRecord record.1 taskId now) committed).status = .RUNNING :=
  Migration.flush_status_written committed record.status_ne

/-- A cancel commits CANCELLED whatever was committed since it read the record. -/
theorem flush_cancelledRecord_status (record : Cancellable) (now : Nat) (committed : Migration) :
    (record.1.flush (cancelledRecord record.1 now) committed).status = .CANCELLED := by
  apply Migration.flush_status_written
  rw [record.2]
  change MigrationStatus.CANCELLED ≠ .RUNNING
  decide

end DataBridge
