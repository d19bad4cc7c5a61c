import DataBridge.Migration.Validator
import DataBridge.Providers.BaseProvider

namespace DataBridge

/-- The plan before the first table: `table_plans`, `total_rows` and `all_warnings`. -/
def MigrationPlan.empty : MigrationPlan := { tables := [], totalRows := 0, warnings := [] }

def MigrationPlan.warn (plan : MigrationPlan) (warning : String) : MigrationPlan :=
  { plan with warnings := plan.warnings ++ [warning] }

structure MigrationPlanner (W : Type) where
  source : BaseDatabaseProvider W
  destination : BaseDatabaseProvider W
  tableNames : List String

namespace MigrationPlanner

variable {W : Type}

def sourceReadWarning (tableName : String) (exc : Exc) : String :=
  s!"Could not read schema for table '{tableName}': {exc.text}"

def destinationReadWarning (tableName : String) (exc : Exc) : String :=
  s!"Could not read destination schema for '{tableName}': {exc.text}"

def fatalWarning (tableName : String) (exc : Exc) : String :=
  s!"FATAL for table '{tableName}': {exc.text}"

/-- The destination schema, `none` where the table is absent or its schema cannot be read.
`table_exists` stands outside the `try`, so its exception ends the planning. -/
def readDestination (p : MigrationPlanner W) (tableName : String) (plan : MigrationPlan) :
    Call Exc W (Option TableSchema × MigrationPlan) := do
  let destExists ← p.destination.tableExists tableName
  if destExists then
    Call.tryExcept
      (do
        let destSchema ← p.destination.getTableSchema tableName
        pure (some destSchema, plan))
      (fun exc => pure (none, plan.warn (destinationReadWarning tableName exc)))
  else pure (none, plan)

/-- The entry of one table whose source schema was read. -/
def planTable (tableName : String) (srcSchema : TableSchema) (destSchema : Option TableSchema)
    (plan : MigrationPlan) : MigrationPlan :=
  match validateSchemaCompatibility srcSchema destSchema with
  | .ok warnings =>
    { tables := plan.tables ++ [{
        tableName := tableName
        sourceSchema := srcSchema
        destinationSchema := destSchema
        columnMappings := buildColumnMappings srcSchema destSchema
        rowCount := srcSchema.rowCount
        status := .pending }]
      totalRows := plan.totalRows + srcSchema.rowCount
      warnings := plan.warnings ++ warnings }
  | .error exc =>
    { tables := plan.tables ++ [{
        tableName := tableName
        sourceSchema := srcSchema
        destinationSchema := destSchema
        columnMappings := []
        rowCount := srcSchema.rowCount
        status := .skipped }]
      totalRows := plan.totalRows
      warnings := plan.warnings ++ [fatalWarning tableName exc] }

def buildPlanStep (p : MigrationPlanner W) (plan : MigrationPlan) (tableName : String) :
    Call Exc W (Pass MigrationPlan MigrationPlan) := do
  let srcSchema ← Call.tryExcept
    (do
      let s ← p.source.getTableSchema tableName
      pure (Except.ok s))
    (fun exc => pure (Except.error exc))
  match srcSchema with
  | .error exc => pure (.again (plan.warn (sourceReadWarning tableName exc)))
  | .ok src => do
    let (destSchema, plan) ← p.readDestination tableName plan
    pure (.again (planTable tableName src destSchema plan))

def buildPlan (p : MigrationPlanner W) : Call Exc W MigrationPlan :=
  Call.forEach p.buildPlanStep p.tableNames .empty

end MigrationPlanner

end DataBridge
