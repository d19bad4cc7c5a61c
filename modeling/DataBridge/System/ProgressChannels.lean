import DataBridge.Migration.Noted
import DataBridge.Services.CreateMigration
import DataBridge.System.Restarted

namespace DataBridge

/-- The last broadcast is the progress that `get_status` reports, of the same total. -/
def ChannelsAgree {W : Type} (migrationId : String) (s : TaskState W) : Prop :=
  ∃ record status progress currentTable processed total speed eta,
    s.app.migrations.get? migrationId = some record ∧
    s.events.getLast? =
      some (migrationId, .progress status progress currentTable processed total speed eta) ∧
    ∀ now, progress = (getStatus migrationId record now).progress ∧
      total = (getStatus migrationId record now).totalRows

/-- No session of the worker writes the total. -/
theorem totalRows_invariant (total : Nat) : RecordInvariant fun record => record.totalRows = total where
  running _ _ h := h
  progress _ _ _ h := h
  failed _ _ _ h := h
  final _ _ _ h := h

namespace TaskContext

variable {Cr W : Type} (x : TaskContext Cr W) {migrationId : String} {created : Nat}

theorem wp_broadcast (event : Event) (s : TaskState W) :
    Call.wp (x.broadcast migrationId event) (Post.onReturn fun _ s' =>
      s'.app = s.app ∧ s'.events.getLast? = some (migrationId, event)) s := by
  refine Call.wp_seq (Call.wp_onReturn (wp_outside x.sockets s)) fun _ s' happ => ?_
  exact ⟨happ, by simp⟩

/-- A report leaves the two channels in agreement just when the plan's total is the record's. -/
theorem wp_onProgress_agree (plan : MigrationPlan) (tableName : String) (rows total : Nat)
    (error : Option String) (s : TaskState W)
    (hs : RowIn (fun record => record.totalRows = created) migrationId s.app) :
    Call.wp (x.onProgress migrationId plan tableName rows total error) (Post.onReturn fun _ s' =>
      ChannelsAgree migrationId s' ↔ plan.totalRows = created) s := by
  refine Call.wp_seq (Call.wp_onReturn (keepsRow_outside x.elapsed s hs)) fun elapsed s₁ h₁ => ?_
  refine Call.wp_seq (Call.wp_onReturn (x.wp_selectOne_in s₁ h₁)) fun record s₂ h₂ => ?_
  have hcreated : record.totalRows = created := h₂.1
  have hcommit : Call.wp (x.commitMigration migrationId (progressRecord record tableName total))
      _ s₂ := x.wp_commitMigration _ s₂
  refine Call.wp_seq (Call.wp_onReturn hcommit) fun _ s₃ h₃ => ?_
  refine Call.wp_mono (x.wp_broadcast _ s₃) ?_ (fun _ _ h => h) (fun _ h => h)
  intro _ s₄ h₄
  obtain ⟨happ, hlast⟩ := h₄
  have hrow : s₄.app.migrations.get? migrationId = some (progressRecord record tableName total) := by
    rw [happ]
    exact h₃
  constructor
  · intro hagree
    obtain ⟨record', _, _, _, _, _, _, _, hrow', hlast', hsame⟩ := hagree
    rw [hrow] at hrow'
    rw [hlast] at hlast'
    cases hrow'
    cases hlast'
    exact (hsame 0).2.trans hcreated
  · intro htotal
    refine ⟨_, _, _, _, _, _, _, _, hrow, hlast, fun now => ?_⟩
    have hsame : plan.totalRows = record.totalRows := htotal.trans hcreated.symm
    exact ⟨by rw [hsame]; rfl, hsame⟩

theorem reports_agree (migrationId : String) (created : Nat) (src dst : ManagedProvider W)
    (migSettings : MigrationSettings) (plan : MigrationPlan) :
    (x.executor migrationId src dst migSettings plan).Reports
      (fun s => RowIn (fun record => record.totalRows = created) migrationId s.app)
      (fun s => ChannelsAgree migrationId s ↔ plan.totalRows = created) := by
  have hframe : x.Maintains (fun s => RowIn _ migrationId s.app) migrationId :=
    x.maintains_row (totalRows_invariant created)
  refine ⟨hframe.executor src dst migSettings plan, ?_⟩
  intro f hf tableName rows total error s hs
  cases hf
  exact x.wp_onProgress_agree plan tableName rows total error s hs

end TaskContext

section agree

open TaskContext (outside inTask keepsRow_outside)

variable {Cr W : Type} (c : CreateContext W) (x : TaskContext Cr W) {req : MigrationCreateRequest}
  {migrationId : String} {job : Job Cr} {src dst : ManagedProvider W} {plan : MigrationPlan}
  {s₀ s₁ s₂ s₃ s₄ s₅ s₆ : TaskState W}

/-- Whatever happened between the creation of a migration and a run of it, after each of the run's
reports the two channels agree just when both plans count as many rows. -/
theorem channels_agree_iff (hcreate : c.createMigration req s₀ = (.returned migrationId, s₁))
    (hhistory : Relation.ReflTransGen (CompleteOperation migrationId) s₁.app s₂.app)
    (hmark : x.markRunning migrationId s₂ = (.returned job, s₃))
    (hsource : outside src.connect s₃ = (.returned (), s₄))
    (hdestination : outside dst.connect s₄ = (.returned (), s₅))
    (hplan : MigrationPlanner.buildPlan ⟨inTask src, inTask dst, job.tables⟩ s₅ =
      (.returned plan, s₆))
    {fuel : Nat} {outcome : Outcome Exc ExecResult} {t : ExecState (Noted (TaskState W))}
    (hrun : (x.executor migrationId src dst job.migSettings plan).noted.run fuel
      ⟨{ inner := s₆ }, 0⟩ = (outcome, t)) :
    ∃ plan₀ s', c.planRequest req s₀ = (.returned plan₀, s') ∧
      ∀ s ∈ t.world.notes, ChannelsAgree migrationId s ↔ plan.totalRows = plan₀.totalRows := by
  obtain ⟨plan₀, s', record, hplan₀, hget, htotal⟩ :=
    Call.wp_of_returned (c.wp_createMigration req s₀) hcreate
  have hcreated : RowIn (fun r => r.totalRows = plan₀.totalRows) migrationId s₁.app := by
    intro r hr
    rw [hget] at hr
    cases hr
    exact htotal
  have hP := totalRows_invariant plan₀.totalRows
  have hframe : x.Maintains (fun s => RowIn _ migrationId s.app) migrationId := x.maintains_row hP
  have h₂ := history_keepsRow hP (fun _ _ _ h => h) (fun _ _ h => h) hhistory hcreated
  have h₃ := Call.wp_of_returned (x.keepsRow_markRunning hP s₂ h₂) hmark
  have h₄ := Call.wp_of_returned (keepsRow_outside src.connect s₃ h₃) hsource
  have h₅ := Call.wp_of_returned (keepsRow_outside dst.connect s₄ h₄) hdestination
  have hkept := MigrationPlanner.keeps_buildPlan (p := ⟨inTask src, inTask dst, job.tables⟩)
    (hframe.inTask src) (hframe.inTask dst)
  have h₆ := Call.wp_of_returned (hkept s₅ h₅) hplan
  have hreports := x.reports_agree migrationId plan₀.totalRows src dst job.migSettings plan
  exact ⟨plan₀, s', hplan₀, hreports.notes fuel h₆ hrun⟩

private def countedSchema (name : String) (rowCount : Nat) : TableSchema where
  name := name
  columns := [{ name := "c", dataType := "TEXT" }]
  rowCount := rowCount

/-- A source with one table, of as many rows as the world says. -/
private def counting : ManagedProvider Nat where
  getTableSchema name := Call.read (countedSchema name)
  tableExists _ := pure false
  fetchBatch _ offset limit _ :=
    Call.read fun n => List.replicate (min limit (n - offset)) (Dict.ofList [("c", .str "x")])
  createTable _ := pure ()
  insertBatch _ rows _ := pure rows.length
  truncateTable _ := pure ()

private def plainCreate : CreateContext Nat where
  fernet := ⟨id, some⟩
  getProvider _ _ := .ok counting
  testConnection _ _ := pure (true, "Connection successful")
  dumpsTables _ := "[\"t\"]"
  dumpsSettings _ := "\x7b\x7d"
  newUuid := pure "m"

private def plainTask : TaskContext Unit Nat where
  loadsTables _ := .ok ["t"]
  loadsSettings _ := .ok {}
  decryptCredentials _ := .ok ()
  databaseType _ := some "sqlite"
  getProvider _ _ := .ok counting
  now := pure 7
  elapsed := pure 1
  newUuid := pure "id"

private def plainRequest : MigrationCreateRequest where
  source := ⟨⟨.SQLITE, .CREDENTIALS, none, none, none, none, none, none, some "old.db"⟩, rfl, rfl⟩
  destination := ⟨⟨.SQLITE, .CREDENTIALS, none, none, none, none, none, none, some "new.db"⟩, rfl, rfl⟩
  requested := ["t"]
  tables := ["t"]
  accepted := rfl

private def createdMigration : Migration :=
  createdRecord (encryptCredentials plainCreate.fernet (credsToDict plainRequest.source))
    (encryptCredentials plainCreate.fernet (credsToDict plainRequest.destination))
    (some (plainCreate.dumpsTables ["t"])) (some (plainCreate.dumpsSettings {})) 1 2

private def startedMigration : Migration := startedRecord createdMigration "task" 5

private def holding (record : Migration) (rowCount : Nat) : TaskState Nat where
  app := { migrations := Dict.ofList [("m", record)] }
  world := rowCount

private theorem created_two : plainCreate.createMigration plainRequest
    { app := { migrations := Dict.ofList [] }, world := 2 } =
      (.returned "m", holding createdMigration 2) := by
  with_unfolding_all rfl

private theorem started_history : Relation.ReflTransGen (CompleteOperation "m")
    (holding createdMigration 2).app (holding startedMigration 3).app :=
  Relation.ReflTransGen.single (.start ⟨createdMigration, rfl⟩ "task" 5 rfl)

private def plainJob : Job Unit where
  tables := ["t"]
  migSettings := {}
  srcCreds := ()
  dstCreds := ()

private theorem marked_three : plainTask.markRunning "m" (holding startedMigration 3) =
    (.returned plainJob, holding (runningRecord startedMigration 7) 3) := by
  with_unfolding_all rfl

private def grownPlan : MigrationPlan :=
  MigrationPlanner.planTable "t" (countedSchema "t" 3) none .empty

private theorem planned_three :
    MigrationPlanner.buildPlan ⟨inTask counting, inTask counting, plainJob.tables⟩
      (holding (runningRecord startedMigration 7) 3) =
      (.returned grownPlan, holding (runningRecord startedMigration 7) 3) := by
  with_unfolding_all rfl

private def grownRun : Outcome Exc ExecResult × ExecState (Noted (TaskState Nat)) :=
  (plainTask.executor "m" counting counting plainJob.migSettings grownPlan).noted.run 2
    ⟨{ inner := holding (runningRecord startedMigration 7) 3 }, 0⟩

theorem channels_agree_iff_grown : ∃ plan₀ s',
    plainCreate.planRequest plainRequest
      { app := { migrations := Dict.ofList [] }, world := 2 } = (.returned plan₀, s') ∧
    ∀ s ∈ grownRun.2.world.notes,
      ChannelsAgree "m" s ↔ grownPlan.totalRows = plan₀.totalRows :=
  channels_agree_iff plainCreate plainTask created_two started_history marked_three rfl rfl
    planned_three (rfl : grownRun = (grownRun.1, grownRun.2))

/-- A row added to the source between the creation and the run: the one report of the run says 3
rows, and the record 2. -/
theorem channels_disagree_grown :
    plainCreate.createMigration plainRequest
      { app := { migrations := Dict.ofList [] }, world := 2 } =
        (.returned "m", holding createdMigration 2) ∧
    Relation.ReflTransGen (CompleteOperation "m")
      (holding createdMigration 2).app (holding startedMigration 3).app ∧
    plainTask.markRunning "m" (holding startedMigration 3) =
      (.returned plainJob, holding (runningRecord startedMigration 7) 3) ∧
    MigrationPlanner.buildPlan ⟨inTask counting, inTask counting, plainJob.tables⟩
      (holding (runningRecord startedMigration 7) 3) =
        (.returned grownPlan, holding (runningRecord startedMigration 7) 3) ∧
    ∃ s ∈ grownRun.2.world.notes, ¬ ChannelsAgree "m" s := by
  refine ⟨created_two, started_history, marked_three, planned_three, ?_⟩
  have hlength : grownRun.2.world.notes.length = 1 := by with_unfolding_all rfl
  obtain ⟨s, hs⟩ := List.length_eq_one_iff.mp hlength
  have hmem : s ∈ grownRun.2.world.notes := by
    rw [hs]
    exact List.mem_singleton_self s
  refine ⟨s, hmem, fun hagree => ?_⟩
  have hrow : RowIn (fun record => record.totalRows = 2) "m"
      (holding (runningRecord startedMigration 7) 3).app := by
    intro record hget
    cases hget
    rfl
  have hreports := plainTask.reports_agree "m" 2 counting counting plainJob.migSettings grownPlan
  have htotals : grownPlan.totalRows = 2 := (hreports.notes 2 hrow rfl s hmem).mp hagree
  have hthree : grownPlan.totalRows = 3 := by with_unfolding_all rfl
  omega

end agree

end DataBridge
