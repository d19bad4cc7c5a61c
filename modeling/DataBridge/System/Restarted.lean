import DataBridge.Workers.RecordInvariant
import Mathlib.Logic.Relation
import Mathlib.Tactic.NormNum

namespace DataBridge

/-- What complete operations on one migration, and anything else, make of the database. -/
inductive CompleteOperation (migrationId : String) : AppDb → AppDb → Prop where
  | start {app : AppDb} (record : Startable) (taskId : String) (now : Nat)
      (hrow : app.migrations.get? migrationId = some record.1) :
      CompleteOperation migrationId app { app with
        migrations := app.migrations.set migrationId (startedRecord record.1 taskId now) }
  | cancel {app : AppDb} (record : Cancellable) (now : Nat)
      (hrow : app.migrations.get? migrationId = some record.1) :
      CompleteOperation migrationId app { app with
        migrations := app.migrations.set migrationId (cancelledRecord record.1 now) }
  | run {Cr W : Type} (x : TaskContext Cr W) (fuel : Nat) (s s' : TaskState W)
      (outcome : Outcome Exc ExecResult) (h : x.execute fuel migrationId s = (outcome, s')) :
      CompleteOperation migrationId s.app s'.app
  | onFailure {Cr W : Type} (x : TaskContext Cr W) (error : String) (s s' : TaskState W)
      (outcome : Outcome Exc Unit) (h : x.markFailed migrationId error s = (outcome, s')) :
      CompleteOperation migrationId s.app s'.app
  | elsewhere {app app' : AppDb}
      (hrow : app'.migrations.get? migrationId = app.migrations.get? migrationId) :
      CompleteOperation migrationId app app'

/-- A failed record says why and when it failed. -/
def FailureRecorded (record : Migration) : Prop :=
  record.status = .FAILED → record.errorMessage.isSome = true ∧ record.completedAt.isSome = true

theorem failureRecorded_invariant : RecordInvariant FailureRecorded where
  running record now _ := by
    intro h
    cases h
  progress record tableName total h := h
  failed record error now _ := fun _ => ⟨rfl, rfl⟩
  final record result now _ := by
    intro h
    have hfailed : result.failedTables ≠ [] := by
      intro hempty
      rw [finalRecord, if_pos hempty] at h
      cases h
    have herror : (finalRecord record result now).errorMessage =
        some s!"Tables failed: {PyText.commaJoin result.failedTables}" := if_neg hfailed
    rw [herror]
    exact ⟨rfl, rfl⟩

section operations

variable {migrationId : String} {app app' : AppDb} {P : Migration → Prop}

/-- What the worker's sessions, a start and a cancel keep of the record, complete operations keep. -/
theorem CompleteOperation.keepsRow (hP : RecordInvariant P)
    (hstart : ∀ record taskId now, P record → P (startedRecord record taskId now))
    (hcancel : ∀ record : Cancellable, ∀ now, P record.1 → P (cancelledRecord record.1 now))
    (h : CompleteOperation migrationId app app') (hrow : RowIn P migrationId app) :
    RowIn P migrationId app' := by
  have hset : ∀ {app : AppDb} {record : Migration}, P record → RowIn P
      migrationId { app with migrations := app.migrations.set migrationId record } := by
    intro app record hrecord record' hget
    rw [Dict.get?_set, if_pos rfl] at hget
    cases hget
    exact hrecord
  cases h with
  | start record taskId now hread => exact hset (hstart record.1 taskId now (hrow _ hread))
  | cancel record now hread => exact hset (hcancel record now (hrow _ hread))
  | run x fuel s s' outcome h =>
    have hkept := x.keepsRow_execute hP fuel s hrow
    cases outcome with
    | returned result => exact Call.wp_of_returned hkept h
    | raised exc => exact Call.wp_of_raised hkept h
    | exhausted => exact Call.wp_of_exhausted hkept h
  | onFailure x error s s' outcome h =>
    have hkept := x.keepsRow_markFailed hP error s hrow
    cases outcome with
    | returned result => exact Call.wp_of_returned hkept h
    | raised exc => exact Call.wp_of_raised hkept h
    | exhausted => exact Call.wp_of_exhausted hkept h
  | elsewhere hsame => exact fun record hget => hrow record (hsame ▸ hget)

theorem history_keepsRow (hP : RecordInvariant P)
    (hstart : ∀ record taskId now, P record → P (startedRecord record taskId now))
    (hcancel : ∀ record : Cancellable, ∀ now, P record.1 → P (cancelledRecord record.1 now))
    (h : Relation.ReflTransGen (CompleteOperation migrationId) app app')
    (hrow : RowIn P migrationId app) : RowIn P migrationId app' := by
  induction h with
  | refl => exact hrow
  | tail _ hstep ih => exact hstep.keepsRow hP hstart hcancel ih

theorem failureRecorded_history (h : Relation.ReflTransGen (CompleteOperation migrationId) app app')
    (hrow : RowIn FailureRecorded migrationId app) : RowIn FailureRecorded migrationId app' :=
  history_keepsRow failureRecorded_invariant (fun _ _ _ _ h => (by cases h))
    (fun _ _ _ h => (by cases h)) h hrow

end operations

/-- A freshly created record with the same configuration. -/
def Migration.fresh (record : Migration) : Migration :=
  createdRecord record.sourceConnection record.destinationConnection record.tablesConfig
    record.settings record.totalTables record.totalRows

/-- The steps of an attempt that write the record. -/
inductive AttemptStep where
  | startMigration (taskId : String) (now : Nat)
  | markRunning (now : Nat)
  | onProgress (tableName : String) (totalProcessed : Nat)
  | markFailed (error : String) (now : Nat)
  | finalise (result : ExecResult) (now : Nat)

namespace AttemptStep

def apply (record : Migration) : AttemptStep → Migration
  | .startMigration taskId now => startedRecord record taskId now
  | .markRunning now => runningRecord record now
  | .onProgress tableName totalProcessed => progressRecord record tableName totalProcessed
  | .markFailed error now => failedRecord record error now
  | .finalise result now => finalRecord record result now

/-- The step writes an error message. -/
def Fails : AttemptStep → Prop
  | .markFailed _ _ => True
  | .finalise result _ => result.failedTables ≠ []
  | _ => False

/-- No step but a failing one writes the error message. -/
theorem apply_errorMessage (record : Migration) {step : AttemptStep} (h : ¬ step.Fails) :
    (apply record step).errorMessage = record.errorMessage := by
  cases step with
  | finalise result now => exact if_pos (not_not.mp h)
  | markFailed error now => exact absurd trivial h
  | _ => rfl

theorem foldl_errorMessage {steps : List AttemptStep} (h : ∀ step ∈ steps, ¬ step.Fails)
    (record : Migration) : (steps.foldl apply record).errorMessage = record.errorMessage := by
  induction steps generalizing record with
  | nil => rfl
  | cons step steps ih =>
    rw [List.foldl_cons, ih fun s hs => h s (List.mem_cons_of_mem step hs)]
    exact apply_errorMessage record (h step List.mem_cons_self)

end AttemptStep

/-- The two records, and what `get_status` says of them at any time, show the same attempt. -/
structure ShowSame (record other : Migration) : Prop where
  status : record.status = other.status
  errorMessage : record.errorMessage = other.errorMessage
  completedAt : record.completedAt = other.completedAt
  processedRows : record.processedRows = other.processedRows
  currentTable : record.currentTable = other.currentTable
  completedTables : record.completedTables = other.completedTables
  getStatus : ∀ migrationId now, getStatus migrationId record now = getStatus migrationId other now

/-- After each step from the start on, the record shows what a fresh one would. -/
def ShowsNothingOld (record : Migration) (taskId : String) (now : Nat) (later : List AttemptStep) :
    Prop :=
  ∀ done, done <+: later → ShowSame
    ((.startMigration taskId now :: done).foldl AttemptStep.apply record)
    ((.startMigration taskId now :: done).foldl AttemptStep.apply record.fresh)

/-- Whatever led to the failure, and however the new attempt goes on, the restarted record shows the
old error and the old end: at the start, and the error after every step until one fails. -/
theorem restart_shows_old {migrationId : String} {app app' : AppDb} {created record : Migration}
    (hcreated : app.migrations.get? migrationId = some created.fresh)
    (hhistory : Relation.ReflTransGen (CompleteOperation migrationId) app app')
    (hrow : app'.migrations.get? migrationId = some record) (hfailed : record.status = .FAILED)
    (taskId : String) (now : Nat) (later : List AttemptStep) :
    ¬ ShowsNothingOld record taskId now later ∧
    (startedRecord record taskId now).completedAt.isSome = true ∧
    ∀ done, done <+: later → (∀ step ∈ done, ¬ step.Fails) →
      ((.startMigration taskId now :: done).foldl AttemptStep.apply record).errorMessage.isSome =
        true := by
  have hpending : RowIn FailureRecorded migrationId app := by
    intro r hr
    rw [hcreated] at hr
    cases hr
    intro h
    cases h
  obtain ⟨herror, hend⟩ := failureRecorded_history hhistory hpending record hrow hfailed
  have hkept : ∀ done, (∀ step ∈ done, ¬ AttemptStep.Fails step) →
      ((AttemptStep.startMigration taskId now :: done).foldl AttemptStep.apply
        record).errorMessage.isSome = true := by
    intro done hdone
    rw [List.foldl_cons, AttemptStep.foldl_errorMessage hdone]
    exact herror
  refine ⟨?_, hend, fun done _ => hkept done⟩
  intro h
  have hsame := (h [] List.nil_prefix).errorMessage
  have hold := hkept [] (by simp)
  rw [List.foldl_cons, List.foldl_nil] at hold hsame
  rw [hsame] at hold
  cases hold

private def someConfig : Migration where
  sourceConnection := "source"
  destinationConnection := "destination"

private def createdApp : AppDb := { migrations := Dict.ofList [("m", someConfig.fresh)] }

/-- A worker that cannot read the configuration. -/
private def brokenWorker : TaskContext Unit Unit where
  loadsTables _ := .error ⟨.other, "boom"⟩
  loadsSettings _ := .ok {}
  decryptCredentials _ := .ok ()
  databaseType _ := none
  getProvider _ _ := .error ⟨.valueError, "no provider"⟩
  now := pure 5
  elapsed := pure 0
  newUuid := pure "id"

private def failedOnce : Migration :=
  { someConfig with
    status := .FAILED, celeryTaskId := some "t1", startedAt := some 1, completedAt := some 5,
    errorMessage := some "boom" }

/-- A start, a run that raises, and its `on_failure`. -/
private theorem failedOnce_reached :
    Relation.ReflTransGen (CompleteOperation "m") createdApp
      { migrations := Dict.ofList [("m", failedOnce)] } := by
  have hstart : CompleteOperation "m" createdApp _ := .start ⟨someConfig.fresh, rfl⟩ "t1" 1 rfl
  have hrun := CompleteOperation.run brokenWorker 0
    ⟨{ migrations := createdApp.migrations.set "m" (startedRecord someConfig.fresh "t1" 1) }, [], ()⟩
    _ _ (rfl : brokenWorker.execute 0 "m" _ = _)
  have hfailure := CompleteOperation.onFailure brokenWorker "boom"
    ⟨{ migrations := createdApp.migrations.set "m" (startedRecord someConfig.fresh "t1" 1) }, [], ()⟩
    _ _ (rfl : brokenWorker.markFailed "m" "boom" _ = _)
  exact ((Relation.ReflTransGen.single hstart).tail hrun).tail hfailure

private def secondAttempt : List AttemptStep :=
  [.markRunning 10, .finalise { completedTables := ["users"], totalRowsMigrated := 3 } 20]

theorem restart_shows_old_boom :
    ((.startMigration "t2" 9 :: secondAttempt).foldl AttemptStep.apply failedOnce).errorMessage.isSome =
      true :=
  have hcreated : createdApp.migrations.get? "m" = some someConfig.fresh := rfl
  (restart_shows_old hcreated failedOnce_reached rfl rfl "t2" 9 secondAttempt).2.2 _ List.prefix_rfl
    (by simp [secondAttempt, AttemptStep.Fails])

/-- After a second attempt that succeeds, the error of the first still stands; while it runs, its
elapsed time is negative. -/
theorem completed_with_old_error :
    Relation.ReflTransGen (CompleteOperation "m") createdApp
      { migrations := Dict.ofList [("m", failedOnce)] } ∧
    failedOnce.status = .FAILED ∧ ¬ ShowsNothingOld failedOnce "t2" 9 secondAttempt ∧
    elapsedSeconds (startedRecord failedOnce "t2" 9) 1000009 = -4 / 1000000 ∧
    elapsedSeconds (startedRecord failedOnce.fresh "t2" 9) 1000009 = 1 ∧
    ((.startMigration "t2" 9 :: secondAttempt).foldl AttemptStep.apply failedOnce).status =
      .COMPLETED ∧
    ((.startMigration "t2" 9 :: secondAttempt).foldl AttemptStep.apply failedOnce).errorMessage =
      some "boom" := by
  refine ⟨failedOnce_reached, rfl, ?_, ?_, ?_, rfl, rfl⟩
  · intro h
    have hsame := (h [] List.nil_prefix).errorMessage
    cases hsame
  · norm_num [elapsedSeconds, startedRecord, failedOnce]
  · norm_num [elapsedSeconds, startedRecord, failedOnce, Migration.fresh, createdRecord]

end DataBridge
