import DataBridge.Core.Constants

namespace DataBridge

structure MigrationSettings where
  includeSchema : Bool := true
  includeData : Bool := true
  batchSize : Nat := 1000
  truncateDestination : Bool := false
  continueOnError : Bool := false
  maxRetries : Nat := 3
  deriving DecidableEq, Repr

structure ColumnSchema where
  name : String
  dataType : String
  isNullable : Bool := true
  isPrimaryKey : Bool := false
  default : Option String := none
  maxLength : Option Nat := none
  precision : Option Nat := none
  scale : Option Nat := none
  enumValues : Option (List String) := none
  deriving DecidableEq, Repr

structure TableSchema where
  name : String
  columns : List ColumnSchema
  primaryKeys : List String := []
  rowCount : Nat := 0
  deriving DecidableEq, Repr

/-- One descriptor of `column_mappings`; `included` is its key "include". -/
structure ColumnMapping where
  sourceCol : String
  destCol : String
  sourceType : String
  destType : String
  included : Bool
  deriving DecidableEq, Repr

/-- The two values the planner gives `MigrationTablePlan.status`. -/
inductive TablePlanStatus where
  | pending
  | skipped
  deriving DecidableEq, Repr

structure MigrationTablePlan where
  tableName : String
  sourceSchema : TableSchema
  destinationSchema : Option TableSchema := none
  columnMappings : List ColumnMapping := []
  rowCount : Nat := 0
  status : TablePlanStatus := .pending
  deriving DecidableEq, Repr

structure MigrationPlan where
  tables : List MigrationTablePlan
  totalRows : Nat
  warnings : List String := []
  deriving DecidableEq, Repr

end DataBridge
