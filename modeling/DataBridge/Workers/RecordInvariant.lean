import DataBridge.System.SoloRun

namespace DataBridge

variable {Cr W α : Type} {P : Migration → Prop} {migrationId : String}

/-- What a session of the worker makes of a record in `P` is in `P`. -/
structure RecordInvariant (P : Migration → Prop) : Prop where
  running : ∀ record now, P record → P (runningRecord record now)
  progress : ∀ record tableName total, P record → P (progressRecord record tableName total)
  failed : ∀ record error now, P record → P (failedRecord record error now)
  final : ∀ record result now, P record → P (finalRecord record result now)

/-- The row of the migration, if there is one, is in `P`. -/
def RowIn (P : Migration → Prop) (migrationId : String) (app : AppDb) : Prop :=
  ∀ record, app.migrations.get? migrationId = some record → P record

theorem RowIn.frame {app app' : AppDb} (h : RowIn P migrationId app) (happ : app' = app) :
    RowIn P migrationId app' := happ ▸ h

namespace TaskContext

variable (x : TaskContext Cr W)

abbrev KeepsRow (P : Migration → Prop) (migrationId : String) (c : Call Exc (TaskState W) α) : Prop :=
  Call.Keeps (fun s => RowIn P migrationId s.app) c

theorem keepsRow_outside (c : Call Exc W α) : KeepsRow P migrationId (outside c) :=
  fun s hs => Call.wp_mono (wp_outside c s) (fun _ _ ha => RowIn.frame hs ha)
    (fun _ _ ha => RowIn.frame hs ha) (fun _ ha => RowIn.frame hs ha)

theorem keepsRow_broadcast (event : Event) : KeepsRow P migrationId (x.broadcast migrationId event) :=
  (keepsRow_outside x.sockets).bind fun _ => Call.keeps_modify fun _ h => h

theorem keepsRow_commit {record : Migration} (h : P record) :
    KeepsRow P migrationId (x.commitMigration migrationId record) := by
  intro s hs
  refine Call.wp_mono (x.wp_commitMigration record s) ?_ (fun _ _ ha => RowIn.frame hs ha)
    (fun _ ha => RowIn.frame hs ha)
  intro _ s' hset record' hget
  rw [hset] at hget
  cases hget
  exact h

/-- A session reads the row, which is in `P`. -/
theorem wp_selectMigration_in (s : TaskState W) (hs : RowIn P migrationId s.app) :
    Call.wp (x.selectMigration migrationId)
      ⟨fun r s' => (∀ record, r = some record → P record) ∧ RowIn P migrationId s'.app,
        fun _ s' => RowIn P migrationId s'.app, fun s' => RowIn P migrationId s'.app⟩ s := by
  refine Call.wp_mono (x.wp_selectMigration s) ?_ (fun _ _ ha => RowIn.frame hs ha) (fun _ ha => RowIn.frame hs ha)
  intro r s' h
  obtain ⟨happ, hrow⟩ := h
  exact ⟨fun record hr => hs record (hrow.symm.trans hr), RowIn.frame hs happ⟩

theorem wp_selectOne_in (s : TaskState W) (hs : RowIn P migrationId s.app) :
    Call.wp (x.selectOne migrationId)
      ⟨fun record s' => P record ∧ RowIn P migrationId s'.app,
        fun _ s' => RowIn P migrationId s'.app, fun s' => RowIn P migrationId s'.app⟩ s := by
  refine Call.wp_seq (x.wp_selectMigration_in s hs) ?_
  intro r s' h
  cases r with
  | none => exact h.2
  | some record => exact ⟨h.1 record rfl, h.2⟩

section sessions

variable (hP : RecordInvariant P)
include hP

theorem keepsRow_onProgress (plan : MigrationPlan) (tableName : String) (rows total : Nat)
    (error : Option String) :
    KeepsRow P migrationId (x.onProgress migrationId plan tableName rows total error) := by
  refine (keepsRow_outside x.elapsed).bind fun elapsed => ?_
  refine Call.Keeps.bind_of (x.wp_selectOne_in) fun record hrecord => ?_
  refine (x.keepsRow_commit (hP.progress record tableName total hrecord)).bind fun _ => ?_
  exact x.keepsRow_broadcast _

theorem keepsRow_markFailed (error : String) :
    KeepsRow P migrationId (x.markFailed migrationId error) := by
  refine Call.Keeps.bind_of (x.wp_selectMigration_in) fun found hfound => ?_
  have hwrite : KeepsRow P migrationId (x.writeFailed migrationId error found) := by
    cases found with
    | none => exact Call.keeps_pure ()
    | some record =>
      refine (keepsRow_outside x.now).bind fun now => ?_
      exact x.keepsRow_commit (hP.failed record error now (hfound record rfl))
  exact hwrite.bind fun _ => x.keepsRow_broadcast _

theorem keepsRow_markRunning : KeepsRow P migrationId (x.markRunning migrationId) := by
  refine Call.Keeps.bind_of (x.wp_selectMigration_in) fun found hfound => ?_
  cases found with
  | none => exact fun s hs => hs
  | some record =>
    refine (Call.keeps_ofExcept _).bind fun tables => ?_
    refine (Call.keeps_ofExcept _).bind fun migSettings => ?_
    refine (Call.keeps_ofExcept _).bind fun srcCreds => ?_
    refine (Call.keeps_ofExcept _).bind fun dstCreds => ?_
    refine (keepsRow_outside x.now).bind fun now => ?_
    refine (x.keepsRow_commit (hP.running record now (hfound record rfl))).bind fun _ => ?_
    exact Call.keeps_pure _

theorem maintains_row : x.Maintains (fun s => RowIn P migrationId s.app) migrationId := by
  refine ⟨keepsRow_outside, x.keepsRow_onProgress hP, ?_⟩
  intro level message t
  refine (keepsRow_outside x.newUuid).bind fun id => ?_
  refine (keepsRow_outside x.appDb).bind fun _ => ?_
  refine (keepsRow_outside x.now).bind fun createdAt => ?_
  refine Call.Keeps.bind (Call.keeps_modify ?_) fun _ => x.keepsRow_broadcast _
  exact fun s hs record hget => hs record hget

/-- A run of the task keeps what its sessions keep of the record, however it ends. -/
theorem keepsRow_execute (fuel : Nat) : KeepsRow P migrationId (x.execute fuel migrationId) := by
  refine (x.keepsRow_markRunning hP).bind fun job => ?_
  have hframe : x.Maintains (fun s => RowIn P migrationId s.app) migrationId := x.maintains_row hP
  have hmigrate : KeepsRow P migrationId (x.migrate fuel migrationId job) :=
    hframe.migrate fuel job fun exc => (x.keepsRow_markFailed hP _).bind fun _ => fun s hs => hs
  refine hmigrate.bind fun result => ?_
  have hfinalise : KeepsRow P migrationId (x.finalise migrationId result) := by
    refine Call.Keeps.bind_of (x.wp_selectOne_in) fun record hrecord => ?_
    refine (keepsRow_outside x.now).bind fun now => ?_
    exact x.keepsRow_commit (hP.final record result now hrecord)
  exact hfinalise.bind fun _ => (x.keepsRow_broadcast _).bind fun _ => Call.keeps_pure _

end sessions

end TaskContext

end DataBridge
