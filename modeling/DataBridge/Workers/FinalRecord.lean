import DataBridge.Workers.CompletedAccounts
import DataBridge.Workers.TerminalEvents

namespace DataBridge

namespace TaskContext

variable {Cr W : Type} (x : TaskContext Cr W) {migrationId : String}

/-- `MigrationTask.on_failure`. -/
def onFailure (exc : Exc) (args : List String) : Call Exc (TaskState W) Unit :=
  match args with
  | [] | "" :: _ => pure ()
  | migrationId :: _ => x.markFailed migrationId exc.text

/-- The task as Celery runs it: an exception that escapes `_execute` is handed to `on_failure`,
whose own outcome changes nothing. The hook runs later, in the context `hook`. -/
def celeryTask (hook : TaskContext Cr W) (fuel : Nat) (migrationId : String) :
    Call Exc (TaskState W) ExecResult := fun s =>
  match x.execute fuel migrationId s with
  | (.raised exc, s') => (.raised exc, (hook.onFailure exc [migrationId] s').2)
  | ended => ended

/-- The application database answers, and the clock runs. -/
structure Reachable : Prop where
  appDb : ∀ w, ∃ w', x.appDb w = (.returned (), w')
  now : ∀ w, ∃ now w', x.now w = (.returned now, w')

/-- The record of a task that has ended: FAILED with the escaping exception, else what the failed
tables say. -/
def EndsIn (migrationId : String) (app : AppDb) : Outcome Exc ExecResult → Prop
  | .raised exc => ∃ record, app.migrations.get? migrationId = some record ∧
      record.status = .FAILED ∧ record.completedAt.isSome = true ∧
      record.errorMessage = some (PyText.first 2000 exc.text)
  | .returned result => ∃ record, app.migrations.get? migrationId = some record ∧
      record.status = (if result.failedTables = [] then .COMPLETED else .FAILED) ∧
      record.completedAt.isSome = true
  | .exhausted => True

/-- A broadcast leaves the database, however it ends. -/
theorem wp_broadcast_app (event : Event) (s : TaskState W) :
    Call.wp (x.broadcast migrationId event) ⟨fun _ s' => s'.app = s.app, fun _ s' => s'.app = s.app,
      fun s' => s'.app = s.app⟩ s := by
  refine Call.wp_seq (wp_outside x.sockets s) ?_
  exact fun _ s' happ => happ

/-- A run that returns has written its last record, and the broadcast leaves it. -/
theorem wp_execute_final (fuel : Nat) (s : TaskState W) :
    Call.wp (x.execute fuel migrationId)
      (Post.onReturn fun result s' => ∃ record now, s'.app.migrations.get? migrationId =
        some (finalRecord record result now)) s := by
  apply Call.wp_bind_any
  intro job s₁
  apply Call.wp_bind_any
  intro result s₂
  refine Call.wp_seq (x.wp_finalise migrationId result s₂) ?_
  intro _ s₃ hfinal
  refine Call.wp_seq (Call.wp_onReturn (x.wp_broadcast_app (.completed result) s₃)) ?_
  intro _ s₄ happ
  obtain ⟨record, now, hrow⟩ := hfinal
  refine ⟨record, now, ?_⟩
  rw [happ]
  exact hrow

/-- An exception that escapes leaves the row of the migration in place. -/
theorem wp_execute_row (fuel : Nat) {record : Migration} {s : TaskState W}
    (hrow : s.app.migrations.get? migrationId = some record) :
    Call.wp (x.execute fuel migrationId)
      ⟨fun _ _ => True, fun _ s' => ∃ record', s'.app.migrations.get? migrationId = some record',
        fun _ => True⟩ s := by
  have hquiet : Quiet migrationId (terminalEvents migrationId s.events) s := ⟨rfl, record, hrow⟩
  refine Call.wp_mono (x.wp_execute_terminal fuel s hquiet) (fun _ _ _ => trivial) ?_
    (fun _ _ => trivial)
  intro exc s' h
  rcases h with ⟨-, error, -, hrow'⟩ | ⟨-, -, hrow'⟩
  · exact hrow'
  · exact hrow'

namespace Reachable

variable {x} (hx : x.Reachable)
include hx

theorem wp_appDb (s : TaskState W) : Call.wp (outside x.appDb)
    ⟨fun _ s' => s'.app = s.app, fun _ _ => False, fun _ => False⟩ s := by
  obtain ⟨w', h⟩ := hx.appDb s.world
  rw [outside, Call.wp_zoom]
  exact Call.wp_of_eq_returned h rfl

theorem wp_now (s : TaskState W) : Call.wp (outside x.now)
    ⟨fun _ s' => s'.app = s.app, fun _ _ => False, fun _ => False⟩ s := by
  obtain ⟨now, w', h⟩ := hx.now s.world
  rw [outside, Call.wp_zoom]
  exact Call.wp_of_eq_returned h rfl

theorem wp_commitMigration (record : Migration) (s : TaskState W) :
    Call.wp (x.commitMigration migrationId record)
      ⟨fun _ s' => s'.app.migrations.get? migrationId = some record, fun _ _ => False,
        fun _ => False⟩ s := by
  refine Call.wp_seq (hx.wp_appDb s) ?_
  intro _ s' _
  simp

/-- The failure is committed, whether or not its broadcast gets through. -/
theorem wp_markFailed (error : String) {record : Migration} {s : TaskState W}
    (hrow : s.app.migrations.get? migrationId = some record) :
    let failed := fun s' : TaskState W => ∃ now, s'.app.migrations.get? migrationId =
      some (failedRecord record error now)
    Call.wp (x.markFailed migrationId error) ⟨fun _ => failed, fun _ => failed, failed⟩ s := by
  intro failed
  have hselect : Call.wp (x.selectMigration migrationId)
      ⟨fun r _ => r = some record, fun _ _ => False, fun _ => False⟩ s := by
    refine Call.wp_seq (hx.wp_appDb s) ?_
    intro _ s' happ
    have happ' : s'.app = s.app := happ
    change s'.app.migrations.get? migrationId = some record
    rw [happ', hrow]
  have hwrite : ∀ s₁, Call.wp (x.writeFailed migrationId error (some record))
      ⟨fun _ => failed, fun _ _ => False, fun _ => False⟩ s₁ := by
    intro s₁
    refine Call.wp_seq (hx.wp_now s₁) ?_
    intro now s₂ _
    exact Call.wp_mono (hx.wp_commitMigration _ s₂) (fun _ _ h => ⟨now, h⟩) (fun _ _ h => h)
      (fun _ h => h)
  have hframe : ∀ {s₂ s₃ : TaskState W}, failed s₂ → s₃.app = s₂.app → failed s₃ := by
    intro s₂ s₃ h happ
    obtain ⟨now, hnow⟩ := h
    exact ⟨now, by rw [happ, hnow]⟩
  refine Call.wp_seq (Call.wp_mono hselect (fun _ _ h => h) (fun _ _ h => h.elim)
    (fun _ h => h.elim)) ?_
  intro found s₁ hfound
  subst hfound
  refine Call.wp_seq (Call.wp_mono (hwrite s₁) (fun _ _ h => h) (fun _ _ h => h.elim)
    (fun _ h => h.elim)) ?_
  intro _ s₂ hfailed
  exact Call.wp_mono (x.wp_broadcast_app _ s₂) (fun _ _ happ => hframe hfailed happ)
    (fun _ _ happ => hframe hfailed happ) (fun _ happ => hframe hfailed happ)

/-- What the hook leaves of the record. -/
theorem onFailure_record (exc : Exc) (hid : migrationId ≠ "") {record : Migration}
    {s : TaskState W} (hrow : s.app.migrations.get? migrationId = some record) :
    ∃ now, (x.onFailure exc [migrationId] s).2.app.migrations.get? migrationId =
      some (failedRecord record exc.text now) := by
  have hhook : x.onFailure exc [migrationId] = x.markFailed migrationId exc.text := by
    unfold onFailure
    split
    · rename_i h
      cases h
    · rename_i h
      cases h
      exact absurd rfl hid
    · rename_i h
      cases h
      rfl
  have hwp := hx.wp_markFailed exc.text hrow
  rw [hhook]
  rw [Call.wp] at hwp
  rcases hend : x.markFailed migrationId exc.text s with ⟨_ | _ | _, s'⟩ <;> rw [hend] at hwp <;>
    exact hwp

end Reachable

/-- However a task ends, its record does not stay RUNNING: an escaping exception leaves it FAILED
with that exception's text, and a return leaves what the failed tables say. -/
theorem celeryTask_endsIn {hook : TaskContext Cr W} (hhook : hook.Reachable) (fuel : Nat)
    (hid : migrationId ≠ "") {record : Migration} {s t : TaskState W}
    {outcome : Outcome Exc ExecResult}
    (hrow : s.app.migrations.get? migrationId = some record)
    (hrun : x.celeryTask hook fuel migrationId s = (outcome, t)) :
    EndsIn migrationId t.app outcome := by
  rcases hexecute : x.execute fuel migrationId s with ⟨result | exc | _, s'⟩
  · have hfinal := Call.wp_of_returned (x.wp_execute_final fuel s) hexecute
    rw [celeryTask, hexecute] at hrun
    cases hrun
    obtain ⟨before, now, hrow'⟩ := hfinal
    exact ⟨_, hrow', rfl, rfl⟩
  · obtain ⟨record', hrow'⟩ := Call.wp_of_raised (x.wp_execute_row fuel hrow) hexecute
    rw [celeryTask, hexecute] at hrun
    cases hrun
    obtain ⟨now, hfailed⟩ := hhook.onFailure_record exc hid hrow'
    exact ⟨_, hfailed, rfl, rfl, rfl⟩
  · rw [celeryTask, hexecute] at hrun
    cases hrun
    trivial

/-- A task whose stored credentials do not name a database, on a day when the sockets are down. -/
private def untypedTask : TaskContext Unit Unit where
  loadsTables _ := .ok ["users"]
  loadsSettings _ := .ok {}
  decryptCredentials _ := .ok ()
  databaseType _ := none
  getProvider _ _ := .error ⟨.other, "not registered"⟩
  sockets := Call.raise ⟨.other, "no socket"⟩
  now := pure 1
  elapsed := pure 1
  newUuid := pure "id"

private def untypedStart : TaskState Unit where
  app := { migrations := Dict.ofList [("m", { sourceConnection := "", destinationConnection := "" })] }
  world := ()

theorem celeryTask_endsIn_untyped : ∃ exc t,
    untypedTask.celeryTask untypedTask 1 "m" untypedStart = (.raised exc, t) ∧
      EndsIn "m" t.app (.raised exc) := by
  have hreachable : untypedTask.Reachable := ⟨fun _ => ⟨(), rfl⟩, fun _ => ⟨1, (), rfl⟩⟩
  have hrow : untypedStart.app.migrations.get? "m" =
      some { sourceConnection := "", destinationConnection := "" } := rfl
  have hrun : ∃ exc t, untypedTask.celeryTask untypedTask 1 "m" untypedStart = (.raised exc, t) :=
    ⟨_, _, rfl⟩
  obtain ⟨exc, t, hrun⟩ := hrun
  exact ⟨exc, t, hrun, celeryTask_endsIn untypedTask hreachable 1 (by decide) hrow hrun⟩

end TaskContext

end DataBridge
