import DataBridge.Core.Constants
import DataBridge.Framework.Dict

namespace DataBridge

/-- A row of the table `migrations`. -/
structure Migration where
  status : MigrationStatus := .PENDING
  sourceConnection : String
  destinationConnection : String
  tablesConfig : Option String := none
  settings : Option String := none
  totalTables : Nat := 0
  completedTables : Nat := 0
  totalRows : Nat := 0
  processedRows : Nat := 0
  currentTable : Option String := none
  startedAt : Option Nat := none
  completedAt : Option Nat := none
  celeryTaskId : Option String := none
  errorMessage : Option String := none
  deriving DecidableEq, Repr

/-- A row of the table `migration_logs`. -/
structure MigrationLog where
  id : String
  migrationId : String
  level : String
  message : String
  tableName : Option String
  createdAt : Nat
  deriving DecidableEq, Repr

/-- The committed rows of the application database; migrations are found by their id. -/
structure AppDb where
  migrations : Dict String Migration
  logs : List MigrationLog := []

end DataBridge
