import DataBridge.Schemas.StoredConfig
import DataBridge.Services.CreateMigration
import DataBridge.System.SoloRun
import DataBridge.Workers.StoredCredentials

namespace DataBridge

/-! ## The configuration of a record -/

/-- What a run reads of its record. -/
structure Migration.Config where
  tablesConfig : Option String
  settings : Option String
  sourceConnection : String
  destinationConnection : String
  deriving DecidableEq

def Migration.config (record : Migration) : Migration.Config :=
  ⟨record.tablesConfig, record.settings, record.sourceConnection, record.destinationConnection⟩

/-- A session that leaves the configuration as it loaded it does not write it. -/
theorem Migration.flush_config {loaded changed : Migration} (committed : Migration)
    (h : changed.config = loaded.config) :
    (loaded.flush changed committed).config = committed.config := by
  simp only [config, Config.mk.injEq] at h ⊢
  obtain ⟨htables, hsettings, hsource, hdestination⟩ := h
  simp [flush, flushColumn, htables, hsettings, hsource, hdestination]

theorem StartState.row_config (committed : Migration) (state : StartState) (a : StartAction) :
    (state.row committed a).config = committed.config := by
  unfold row
  split
  · exact Migration.flush_config committed rfl
  · rfl

theorem CancelState.row_config (committed : Migration) (state : CancelState) (a : CancelAction) :
    (state.row committed a).config = committed.config := by
  unfold row
  split
  · exact Migration.flush_config committed rfl
  · rfl

theorem RunState.row_config (committed : Migration) (state : RunState) (a : RunAction) :
    (state.row committed a).config = committed.config := by
  unfold row
  split
  · rename_i op record now
    cases op <;> exact Migration.flush_config committed rfl
  · rfl

/-- Neither a request nor a run of the task writes the configuration. -/
theorem MigrationSystem.step_config {s t : MigrationSystem} {a : Action} (h : s.step a = some t) :
    t.record.config = s.record.config := by
  cases a with
  | beginStart => cases h; rfl
  | beginCancel => cases h; rfl
  | start i a =>
    obtain ⟨state, _, _, -, -, -, rfl⟩ := stepStart_iff.mp h
    exact state.row_config s.record a
  | cancel i a =>
    obtain ⟨state, _, -, -, rfl⟩ := stepCancel_iff.mp h
    exact state.row_config s.record a
  | deliver taskId =>
    obtain ⟨_, -, -, rfl⟩ := deliver_iff.mp h
    rfl
  | discard taskId =>
    obtain ⟨_, -, -, rfl⟩ := discard_iff.mp h
    rfl
  | terminate i =>
    obtain ⟨_, -, -, rfl⟩ := terminate_spec h
    rfl
  | run i a =>
    obtain ⟨run, _, -, -, rfl⟩ := stepRun_iff.mp h
    exact run.state.row_config s.record a

theorem MigrationSystem.config_of_reaches {ok : MigrationSystem → Action → Prop}
    {s t : MigrationSystem} (h : migrationSystem.Reaches ok s t) :
    t.record.config = s.record.config := by
  refine h.invariant (I := fun t => t.record.config = s.record.config) ?_ rfl
  intro u a v hu _ hstep
  exact (step_config hstep).trans hu

/-! ## What a run loads -/

section load

variable {Cr W : Type} (x : TaskContext Cr W)

/-- What `_execute` makes of the configuration. -/
def TaskContext.loadJob (config : Migration.Config) : Except Exc (Job Cr) := do
  let tables ← x.loadsTables (TaskContext.orText config.tablesConfig "[]")
  let migSettings ← x.loadsSettings (TaskContext.orText config.settings "{}")
  let srcCreds ← x.decryptCredentials config.sourceConnection
  let dstCreds ← x.decryptCredentials config.destinationConnection
  pure { tables, migSettings, srcCreds, dstCreds }

open TaskContext (outside)

/-- The session that marks the record RUNNING, with the load of its configuration in one place. -/
theorem TaskContext.markRunning_eq (migrationId : String) :
    x.markRunning migrationId = (do
      match ← x.selectMigration migrationId with
      | none => Call.raise ⟨.valueError, s!"Migration {migrationId} not found in DB"⟩
      | some record => do
        let job ← Call.ofExcept (x.loadJob record.config)
        let now ← outside x.now
        x.commitMigration migrationId (runningRecord record now)
        pure job) := by
  unfold markRunning
  congr 1
  funext found
  cases found with
  | none => rfl
  | some record =>
    simp only [loadJob, Migration.config]
    cases x.loadsTables (orText record.tablesConfig "[]") with
    | error exc => rfl
    | ok tables =>
      cases x.loadsSettings (orText record.settings "{}") with
      | error exc => rfl
      | ok migSettings =>
        cases x.decryptCredentials record.sourceConnection with
        | error exc => rfl
        | ok srcCreds =>
          cases x.decryptCredentials record.destinationConnection <;> rfl

end load

/-! ## A run loads what was requested -/

section codecs

variable {W : Type} (lib : SettingsLibrary) (fernet : Fernet)

/-- A request's service with the writers of the repository. -/
def CreateContext.withCodecs (c : CreateContext W) : CreateContext W :=
  { c with
    fernet := fernet
    dumpsTables := DataBridge.dumpsTables
    dumpsSettings := MigrationSettings.dumps }

/-- A task with the readers of the repository. -/
def TaskContext.withCodecs (x : TaskContext Credentials W) : TaskContext Credentials W :=
  { x with
    loadsTables := DataBridge.loadsTables lib
    loadsSettings := DataBridge.loadsSettings lib
    decryptCredentials := DataBridge.decryptCredentials fernet }

variable (c : CreateContext W) (x : TaskContext Credentials W) (req : MigrationCreateRequest)

/-- The configuration that `create_migration` stores. -/
def MigrationCreateRequest.config : Migration.Config :=
  ⟨some (dumpsTables req.tables), some req.settings.dumps,
    encryptCredentials fernet (credsToDict req.source),
    encryptCredentials fernet (credsToDict req.destination)⟩

/-- The tables, the settings and the two connections of the request. -/
def MigrationCreateRequest.job : Job Credentials :=
  ⟨req.tables, req.settings, credsToDict req.source, credsToDict req.destination⟩

theorem orText_dumps (st : Json.Style) (v : Json) (default : String) :
    TaskContext.orText (some (Json.dumps st v)) default = Json.dumps st v := by
  obtain ⟨ch, cs, htext, -⟩ := Json.valueText_opens st v
  have hne : Json.dumps st v ≠ "" := by
    intro h
    have hnil : (Json.dumps st v).toList = [] := by rw [h]; rfl
    rw [Json.dumps, String.toList_ofList, htext] at hnil
    cases hnil
  unfold TaskContext.orText
  split
  · rename_i h
    cases h
  · rename_i h
    exact absurd (Option.some.inj h) hne
  · rename_i h
    exact (Option.some.inj h).symm

theorem loadJob_requested (hlib : lib.Standard) (hfernet : fernet.Undoes)
    (hsettings : req.settings.Valid) :
    (x.withCodecs lib fernet).loadJob (req.config fernet) = .ok req.job := by
  have htables : (x.withCodecs lib fernet).loadsTables
      (TaskContext.orText (some (dumpsTables req.tables)) "[]") = .ok req.tables := by
    rw [dumpsTables, orText_dumps]
    exact loadsTables_dumpsTables lib req.tables
  have hloaded : (x.withCodecs lib fernet).loadsSettings
      (TaskContext.orText (some req.settings.dumps) "{}") = .ok req.settings := by
    rw [MigrationSettings.dumps, orText_dumps]
    exact loadsSettings_dumps lib hlib hsettings
  have hcreds : ∀ conn, (x.withCodecs lib fernet).decryptCredentials
      (encryptCredentials fernet (credsToDict conn)) = .ok (credsToDict conn) := fun conn =>
    decrypt_encryptCredentials fernet hfernet (credsToDict conn)
  simp only [TaskContext.loadJob, MigrationCreateRequest.config, htables, hloaded, hcreds]
  rfl

/-- A created record has the configuration of its request. -/
theorem wp_createMigration_config (s : TaskState W) :
    Call.wp ((c.withCodecs fernet).createMigration req) (Post.onReturn fun migrationId s' =>
      ∃ record, s'.app.migrations.get? migrationId = some record ∧
        record.config = req.config fernet) s := by
  apply Call.wp_bind_any
  intro plan s₁
  apply Call.wp_bind_any
  intro migrationId s₂
  have hinsert : ∀ record, Call.wp ((c.withCodecs fernet).insertMigration migrationId record)
      (Post.onReturn fun _ s' => s'.app.migrations.get? migrationId = some record) s₂ := by
    intro record
    apply Call.wp_bind_any
    intro _ s'
    simp
  refine Call.wp_seq (hinsert _) fun _ s₃ hrow => ?_
  exact ⟨_, hrow, rfl⟩

/-- The exceptions of a call. -/
def Raised {α : Type} (call : Call Exc W α) (exc : Exc) : Prop :=
  ∃ w w', call w = (.raised exc, w')

theorem wp_outside_raised {α : Type} (call : Call Exc W α) (s : TaskState W) :
    Call.wp (TaskContext.outside call)
      ⟨fun _ _ => True, fun exc _ => Raised call exc, fun _ => True⟩ s := by
  rw [TaskContext.outside, Call.wp_zoom]
  refine Call.wp_mono (Call.wp_self call s.world) (fun _ _ _ => trivial) ?_ (fun _ _ => trivial)
  intro exc w' h
  exact ⟨_, w', h⟩

/-- A session that finds a configuration it can load returns its job, and raises only what the
database or the clock raises. -/
theorem TaskContext.wp_markRunning_loaded {Cr : Type} (x : TaskContext Cr W) {migrationId : String}
    {s : TaskState W} {record : Migration} {job : Job Cr}
    (hrow : s.app.migrations.get? migrationId = some record)
    (hload : x.loadJob record.config = .ok job) :
    Call.wp (x.markRunning migrationId) ⟨fun job' _ => job' = job,
      fun exc _ => Raised x.appDb exc ∨ Raised x.now exc, fun _ => True⟩ s := by
  have hselect : Call.wp (x.selectMigration migrationId)
      ⟨fun found _ => found = some record, fun exc _ => Raised x.appDb exc, fun _ => True⟩ s := by
    have hboth := Call.wp_and (TaskContext.wp_outside x.appDb s) (wp_outside_raised x.appDb s)
    refine Call.wp_seq (Call.wp_mono hboth (fun _ _ h => h.1) (fun _ _ h => h.2)
      (fun _ _ => trivial)) fun _ s' happ => ?_
    have hsame : s'.app = s.app := happ
    change s'.app.migrations.get? migrationId = some record
    rw [hsame]
    exact hrow
  rw [x.markRunning_eq]
  refine Call.wp_seq (Call.wp_mono hselect (fun _ _ h => h) (fun _ _ h => Or.inl h)
    (fun _ _ => trivial)) ?_
  intro found s₁ hfound
  subst hfound
  refine Call.wp_bind_ofExcept (fun job' hjob => ?_) (fun exc hexc => ?_)
  · obtain rfl : job = job' := by
      rw [hload] at hjob
      injection hjob
    refine Call.wp_seq (Call.wp_mono (wp_outside_raised x.now s₁) (fun _ _ h => h)
      (fun _ _ h => Or.inr h) (fun _ _ => trivial)) fun now s₂ _ => ?_
    refine Call.wp_seq (R := fun _ _ => True) ?_ fun _ _ _ => rfl
    refine Call.wp_seq (Call.wp_mono (wp_outside_raised x.appDb s₂) (fun _ _ h => h)
      (fun _ _ h => Or.inl h) (fun _ _ => trivial)) fun _ _ _ => trivial
  · rw [hload] at hexc
    cases hexc

/-- Whatever starts, cancels and runs of a created migration were interleaved, a run that reads its
record then loads the tables, the settings and the two connections that were requested. -/
theorem requested_job_loaded (hlib : lib.Standard) (hfernet : fernet.Undoes)
    (hsettings : req.settings.Valid) {migrationId : String} {s₀ s₁ : TaskState W}
    (hcreate : (c.withCodecs fernet).createMigration req s₀ = (.returned migrationId, s₁)) :
    ∃ record, s₁.app.migrations.get? migrationId = some record ∧
      ∀ t, migrationSystem.Reaches Transition.anyAction { record := record } t →
        ∀ s₂ : TaskState W, s₂.app.migrations.get? migrationId = some t.record →
          Call.wp ((x.withCodecs lib fernet).markRunning migrationId)
            ⟨fun job _ => job = req.job, fun exc _ => Raised x.appDb exc ∨ Raised x.now exc,
              fun _ => True⟩ s₂ := by
  obtain ⟨record, hrow, hconfig⟩ :=
    Call.wp_of_returned (wp_createMigration_config fernet c req s₀) hcreate
  refine ⟨record, hrow, ?_⟩
  intro t hreaches s₂ hread
  have hkept : t.record.config = req.config fernet :=
    (MigrationSystem.config_of_reaches hreaches).trans hconfig
  have hload := loadJob_requested lib fernet x req hlib hfernet hsettings
  rw [← hkept] at hload
  exact (x.withCodecs lib fernet).wp_markRunning_loaded hread hload

private def quietProvider : ManagedProvider Unit where
  getTableSchema _ := Call.raise ⟨.other, "no such table"⟩
  tableExists _ := pure false
  fetchBatch _ _ _ _ := pure []
  createTable _ := pure ()
  insertBatch _ rows _ := pure rows.length
  truncateTable _ := pure ()

private def quietCreate : CreateContext Unit where
  fernet := ⟨id, some⟩
  getProvider _ _ := .ok quietProvider
  testConnection _ _ := pure (true, "Connection successful")
  dumpsTables _ := ""
  dumpsSettings _ := ""
  newUuid := pure "m"

private def loadingTask : TaskContext Credentials Unit where
  loadsTables _ := .ok []
  loadsSettings _ := .ok {}
  decryptCredentials _ := .ok Dict.empty
  databaseType _ := some "sqlite"
  getProvider _ _ := .ok quietProvider
  now := pure 7
  elapsed := pure 1
  newUuid := pure "id"

private def quietLibrary : SettingsLibrary where
  toBool
    | .scalar (.bool b) => some b
    | _ => none
  toInt
    | .scalar (.int i) => some i
    | _ => none
  decodeError _ := "Expecting value"
  validationError _ := "validation error"
  notMapping _ := "not a mapping"

private def quietRequest : MigrationCreateRequest where
  source := ⟨⟨.SQLITE, .CREDENTIALS, none, none, none, none, none, none, some "staging.db"⟩, rfl, rfl⟩
  destination := ⟨⟨.SQLITE, .CREDENTIALS, none, none, none, none, none, none, some "archive.db"⟩, rfl, rfl⟩
  requested := ["orders"]
  tables := ["orders"]
  accepted := rfl
  settings := { batchSize := 250, maxRetries := 0 }

/-- The request is started, cancelled while the task has its row loaded, and delivered again. -/
private def startedAndCancelled : List Action :=
  [.beginStart, .start 0 .read, .start 0 .check, .start 0 (.enqueue "t0" 3), .deliver "t0",
    .start 0 .commit, .run 0 .read, .beginCancel, .cancel 0 .read, .cancel 0 .check,
    .cancel 0 (.revoke 4), .run 0 (.commit 5), .cancel 0 .commit, .deliver "t0"]

theorem requested_job_loaded_sqlite : ∃ s₁ record t,
    (quietCreate.withCodecs ⟨id, some⟩).createMigration quietRequest
      { app := { migrations := Dict.empty }, world := () } = (.returned "m", s₁) ∧
    s₁.app.migrations.get? "m" = some record ∧
    migrationSystem.Reaches Transition.anyAction { record } t ∧ t.record.status = .CANCELLED ∧
    Call.wp ((loadingTask.withCodecs quietLibrary ⟨id, some⟩).markRunning "m")
      ⟨fun job _ => job.tables = ["orders"] ∧ job.migSettings.batchSize = 250, fun _ _ => True,
        fun _ => True⟩
      { app := { migrations := Dict.empty.set "m" t.record }, world := () } := by
  have hcreate : ∃ s₁ record t, (quietCreate.withCodecs ⟨id, some⟩).createMigration quietRequest
      { app := { migrations := Dict.empty }, world := () } = (.returned "m", s₁) ∧
      s₁.app.migrations.get? "m" = some record ∧
      migrationSystem.run Transition.anyAction { record } startedAndCancelled = some t ∧
      t.record.status = .CANCELLED := ⟨_, _, _, rfl, rfl, rfl, rfl⟩
  obtain ⟨s₁, record, t, hs₁, hcreated, hrun, hcancelled⟩ := hcreate
  have hreach := Transition.reaches_of_run hrun
  obtain ⟨found, hrow, hload⟩ := requested_job_loaded quietLibrary ⟨id, some⟩ quietCreate loadingTask
    quietRequest ⟨fun _ => rfl, fun _ => rfl⟩ (fun _ => rfl) (by decide) hs₁
  obtain rfl : record = found := by
    rw [hcreated] at hrow
    exact Option.some.inj hrow
  have hread : (Dict.empty.set "m" t.record).get? "m" = some t.record := by
    rw [Dict.get?_set, if_pos rfl]
  refine ⟨s₁, record, t, hs₁, hcreated, hreach, hcancelled, Call.wp_mono (hload t hreach _ hread) ?_
    (fun _ _ _ => trivial) (fun _ _ => trivial)⟩
  intro job _ hjob
  rw [hjob]
  exact ⟨rfl, rfl⟩

end codecs

end DataBridge
