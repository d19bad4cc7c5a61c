import DataBridge.Framework.PyText
import DataBridge.Providers.Credentials
import DataBridge.Services.MigrationService
import DataBridge.Utils.Encryption
import DataBridge.Workers.TaskFrame

namespace DataBridge

/-- The validator `tables_not_empty`. -/
def tablesNotEmpty (v : List String) : Except Exc (List String) :=
  let cleaned := (v.filter fun t => PyText.strip t ≠ "").map PyText.strip
  if cleaned = [] then .error ⟨.valueError, "At least one table name must be provided"⟩
  else .ok cleaned

/-- A request that was accepted; `requested` is the list of names before its normalisation. -/
structure MigrationCreateRequest where
  source : ConnectionCredentials
  destination : ConnectionCredentials
  requested : List String
  tables : List String
  accepted : tablesNotEmpty requested = .ok tables
  settings : MigrationSettings := {}

/-- What `create_migration` uses from outside this module. -/
structure CreateContext (W : Type) where
  fernet : Fernet
  getProvider : String → Credentials → Except Exc (ManagedProvider W)
  testConnection : String → Credentials → Call Exc W (Bool × String)
  dumpsTables : List String → String
  dumpsSettings : MigrationSettings → String
  newUuid : Call Exc W String
  appDb : Call Exc W Unit := pure ()

namespace CreateContext

open TaskContext (outside inTask connected)

variable {W : Type} (c : CreateContext W)

/-- `raise ValueError` unless the test of a connection succeeded. -/
def checkConnection (side type : String) (creds : Credentials) : Call Exc (TaskState W) Unit := do
  let result ← outside (c.testConnection type creds)
  if result.1 then pure ()
  else Call.raise ⟨.valueError, s!"{side} connection failed: {result.2}"⟩

def insertMigration (migrationId : String) (record : Migration) : Call Exc (TaskState W) Unit := do
  outside c.appDb
  Call.modify fun s => { s with app := { s.app with
    migrations := s.app.migrations.set migrationId record } }

/-- `create_migration` up to the end of its planning. -/
def planRequest (req : MigrationCreateRequest) : Call Exc (TaskState W) MigrationPlan := do
  let srcCreds := credsToDict req.source
  let dstCreds := credsToDict req.destination
  let src ← Call.ofExcept (c.getProvider req.source.databaseType.value srcCreds)
  let dst ← Call.ofExcept (c.getProvider req.destination.databaseType.value dstCreds)
  c.checkConnection "Source" req.source.databaseType.value srcCreds
  c.checkConnection "Destination" req.destination.databaseType.value dstCreds
  connected src (connected dst (MigrationPlanner.buildPlan ⟨inTask src, inTask dst, req.tables⟩))

def createMigration (req : MigrationCreateRequest) : Call Exc (TaskState W) String := do
  let plan ← c.planRequest req
  let migrationId ← outside c.newUuid
  c.insertMigration migrationId (createdRecord (encryptCredentials c.fernet (credsToDict req.source))
    (encryptCredentials c.fernet (credsToDict req.destination)) (some (c.dumpsTables req.tables))
    (some (c.dumpsSettings req.settings)) req.tables.length plan.totalRows)
  pure migrationId

/-- The record is created with the total of the plan made then. -/
theorem wp_createMigration (req : MigrationCreateRequest) (s : TaskState W) :
    Call.wp (c.createMigration req) (Post.onReturn fun migrationId s' => ∃ plan s₁ record,
      c.planRequest req s = (.returned plan, s₁) ∧
        s'.app.migrations.get? migrationId = some record ∧ record.totalRows = plan.totalRows) s := by
  refine Call.wp_seq (Call.wp_onReturn_self _ s) fun plan s₁ hplan => ?_
  apply Call.wp_bind_any
  intro migrationId s₂
  have hinsert : ∀ record, Call.wp (c.insertMigration migrationId record)
      (Post.onReturn fun _ s' => s'.app.migrations.get? migrationId = some record) s₂ := by
    intro record
    apply Call.wp_bind_any
    intro _ s'
    simp
  refine Call.wp_seq (hinsert _) fun _ s₃ hrow => ?_
  exact ⟨plan, s₁, _, hplan, hrow, rfl⟩

end CreateContext

end DataBridge
