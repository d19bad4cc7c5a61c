import DataBridge.Framework.Dict
import DataBridge.Framework.Keeps
import DataBridge.Services.MigrationService

namespace DataBridge

/-- How a call to another process ends. An exception may reach the caller before the call has
taken effect there, or after. -/
inductive CallEnd (ε : Type) where
  | returns
  | raises (exc : ε)
  | raisesAfter (exc : ε)
  deriving DecidableEq, Repr

namespace Call

variable {ε W α β : Type}

/-- A call to another process, with its effect there. -/
def attempt (callEnd : CallEnd ε) (effect : W → W) : Call ε W Unit :=
  match callEnd with
  | .returns => modify effect
  | .raises exc => raise exc
  | .raisesAfter exc => do
    modify effect
    raise exc

theorem wp_read (f : W → α) (Q : Post ε W α) (w : W) :
    wp (read f : Call ε W α) Q w ↔ Q.returned (f w) w := Iff.rfl

theorem wp_raise (exc : ε) (Q : Post ε W α) (w : W) :
    wp (raise exc : Call ε W α) Q w ↔ Q.raised exc w := Iff.rfl

theorem wp_pure (a : α) (Q : Post ε W α) (w : W) :
    wp (pure a : Call ε W α) Q w ↔ Q.returned a w := Iff.rfl

@[simp] theorem wp_attempt_returns (effect : W → W) (Q : Post ε W Unit) (w : W) :
    wp (attempt .returns effect) Q w ↔ Q.returned () (effect w) := Iff.rfl

@[simp] theorem wp_attempt_raises (exc : ε) (effect : W → W) (Q : Post ε W Unit) (w : W) :
    wp (attempt (.raises exc) effect) Q w ↔ Q.raised exc w := Iff.rfl

@[simp] theorem wp_attempt_raisesAfter (exc : ε) (effect : W → W) (Q : Post ε W Unit) (w : W) :
    wp (attempt (.raisesAfter exc) effect) Q w ↔ Q.raised exc (effect w) := Iff.rfl

/-- A condition on the world in which a call raises. -/
abbrev onRaise (R : W → Prop) : Post ε W α := ⟨fun _ _ => True, fun _ => R, fun _ => True⟩

theorem forall_raised_iff {c : Call ε W α} {R : W → Prop} {w : W} :
    (∀ exc w', c w = (.raised exc, w') → R w') ↔ wp c (onRaise R) w := by
  rw [wp]
  rcases hc : c w with ⟨_ | exc | _, w'⟩
  · simp
  · constructor
    · intro h
      exact h exc w' rfl
    · intro h exc' w'' heq
      cases heq
      exact h
  · simp

/-- A call that fails while nothing has happened yet. -/
theorem wp_bind_ofExcept_onRaise {r : Except ε α} {f : α → Call ε W β} {R : W → Prop} {w : W}
    (hw : R w) : wp (ofExcept r >>= f) (onRaise R) w ↔
      ∀ a, r = .ok a → wp (f a) (onRaise R) w := by
  cases r with
  | ok a =>
    constructor
    · intro h a' ha
      cases ha
      exact h
    · intro h
      exact h a rfl
  | error e =>
    constructor
    · intro _ a ha
      cases ha
    · intro _
      exact hw

/-- An effect on one process and then, after a local step, an effect on another. The first cannot
be taken back: the two are all or nothing only where no exception follows it. -/
theorem wp_two_effects {first second : CallEnd ε} {f g h : W → W} {R : W → Prop} {w : W} {a : α}
    (hw : R w) (hf : ¬ R (f w)) (hg : ¬ R (g (f w))) (hh : ¬ R (h (g (f w)))) :
    wp (do attempt first f; modify g; attempt second h; pure a) (onRaise R) w ↔
      ¬ ((∃ exc, first = .raisesAfter exc) ∨ first = .returns ∧ second ≠ .returns) := by
  cases first with
  | returns => cases second <;> simp [wp_pure, hg, hh]
  | raises exc => simp [hw]
  | raisesAfter exc => simp [hf]

/-- A single effect is all or nothing unless an exception follows it. -/
theorem wp_one_effect {only : CallEnd ε} {g h : W → W} {R : W → Prop} {w : W} {a : α}
    (hg : R (g w)) (hh : ¬ R (h (g w))) :
    wp (do modify g; attempt only h; pure a) (onRaise R) w ↔ ¬ ∃ exc, only = .raisesAfter exc := by
  cases only <;> simp [wp_pure, hg, hh]

end Call

/-- The row a session has loaded, and what it has made of it. -/
structure LoadedRow where
  migrationId : String
  loaded : Migration
  changed : Migration

/-- What the requests of the API share: the committed rows, the tasks sent to the broker with the
migration each is for, the revoked task ids, and the session of the request. -/
structure ServiceState where
  migrations : Dict String Migration
  enqueued : List (String × String) := []
  revoked : List String := []
  session : Option LoadedRow := none

namespace ServiceState

/-- The session has read a row. -/
def load (migrationId : String) (record : Migration) (s : ServiceState) : ServiceState :=
  { s with session := some ⟨migrationId, record, record⟩ }

/-- `db.commit()`: the changes of the session reach its row. -/
def commit (s : ServiceState) : ServiceState :=
  match s.session with
  | none => s
  | some row =>
    match s.migrations.get? row.migrationId with
    | none => s
    | some committed =>
      let flushed := row.loaded.flush row.changed committed
      { s with migrations := s.migrations.set row.migrationId flushed }

/-- `session.rollback()`, and the end of `async with AsyncSessionLocal()`. -/
def rollback (s : ServiceState) : ServiceState := { s with session := none }

/-- The attributes of the loaded record are assigned. -/
def assign (change : Migration → Migration) (s : ServiceState) : ServiceState :=
  { s with session := s.session.map fun row => { row with changed := change row.changed } }

@[simp] theorem load_enqueued (migrationId : String) (record : Migration) (s : ServiceState) :
    (s.load migrationId record).enqueued = s.enqueued := rfl

@[simp] theorem load_revoked (migrationId : String) (record : Migration) (s : ServiceState) :
    (s.load migrationId record).revoked = s.revoked := rfl

@[simp] theorem assign_enqueued (change : Migration → Migration) (s : ServiceState) :
    (s.assign change).enqueued = s.enqueued := rfl

@[simp] theorem assign_revoked (change : Migration → Migration) (s : ServiceState) :
    (s.assign change).revoked = s.revoked := rfl

@[simp] theorem commit_enqueued (s : ServiceState) : s.commit.enqueued = s.enqueued := by
  unfold commit
  split
  · rfl
  · split <;> rfl

@[simp] theorem commit_revoked (s : ServiceState) : s.commit.revoked = s.revoked := by
  unfold commit
  split
  · rfl
  · split <;> rfl

/-- Nothing of a migration was committed between two states, and the broker was not reached. -/
structure Untouched (migrationId : String) (s s' : ServiceState) : Prop where
  record : s'.migrations.get? migrationId = s.migrations.get? migrationId
  enqueued : s'.enqueued = s.enqueued
  revoked : s'.revoked = s.revoked

end ServiceState

/-- What one request meets outside the service: how its calls end, the id of the task the broker
makes, and the instant at which the request reads the clock. -/
structure ServiceContext where
  lookup : CallEnd Exc := .returns
  broker : CallEnd Exc := .returns
  commit : CallEnd Exc := .returns
  taskId : String
  now : Nat

/-- `get_db` around the call that a request makes with its session. -/
def getDb {α : Type} (c : Call Exc ServiceState α) : Call Exc ServiceState α :=
  Call.tryFinally (Call.tryExcept c fun exc => do
    Call.modify ServiceState.rollback
    Call.raise exc) (Call.modify ServiceState.rollback)

/-- A call that leaves everything as it was whenever it raises. -/
def AllOrNothing {α : Type} (migrationId : String) (c : Call Exc ServiceState α)
    (s : ServiceState) : Prop :=
  ∀ exc s', getDb c s = (.raised exc, s') → s.Untouched migrationId s'

namespace MigrationService

variable (x : ServiceContext) (migrationId : String)

/-- `_get_or_404`. -/
def getOr404 : Call Exc ServiceState Migration := do
  Call.attempt x.lookup id
  match ← Call.read fun s => s.migrations.get? migrationId with
  | none => Call.raise (migrationNotFound migrationId)
  | some record =>
    Call.modify fun s => s.load migrationId record
    pure record

def startMigration : Call Exc ServiceState (String × String) := do
  let record ← getOr404 x migrationId
  let _ ← Call.ofExcept (checkStart record)
  Call.attempt x.broker fun s => { s with enqueued := s.enqueued ++ [(x.taskId, migrationId)] }
  Call.modify (ServiceState.assign fun record => startedRecord record x.taskId x.now)
  Call.attempt x.commit ServiceState.commit
  pure (migrationId, x.taskId)

/-- The task id of a record for which `if record.celery_task_id` holds. -/
def revokedTask (record : Migration) : Option String :=
  record.celeryTaskId.filter fun taskId => taskId ≠ ""

/-- `celery_app.control.revoke`. -/
def revokeTask (record : Migration) : Call Exc ServiceState Unit :=
  match revokedTask record with
  | none => pure ()
  | some taskId => Call.attempt x.broker fun s => { s with revoked := s.revoked ++ [taskId] }

def cancelMigration : Call Exc ServiceState (String × String) := do
  let record ← getOr404 x migrationId
  let _ ← Call.ofExcept (checkCancel record)
  revokeTask x record
  Call.modify (ServiceState.assign fun record => cancelledRecord record x.now)
  Call.attempt x.commit ServiceState.commit
  pure (migrationId, "cancelled")

/-- The row the request works on is there. -/
def Finds (s : ServiceState) (record : Migration) : Prop :=
  x.lookup = .returns ∧ s.migrations.get? migrationId = some record

/-- `start_migration` comes to its broker call, and ends with an exception once that call has taken
effect. -/
def StartsHalfway (s : ServiceState) : Prop :=
  ∃ record, Finds x migrationId s record ∧ record.status.startable = true ∧
    ((∃ exc, x.broker = .raisesAfter exc) ∨ x.broker = .returns ∧ x.commit ≠ .returns)

/-- `cancel_migration` ends with an exception once its broker call, or without one its commit, has
taken effect. -/
def CancelsHalfway (s : ServiceState) : Prop :=
  ∃ record, Finds x migrationId s record ∧ record.status = .RUNNING ∧
    match revokedTask record with
    | some _ => (∃ exc, x.broker = .raisesAfter exc) ∨ x.broker = .returns ∧ x.commit ≠ .returns
    | none => ∃ exc, x.commit = .raisesAfter exc

variable {x migrationId} {s : ServiceState} {R : ServiceState → Prop} {α : Type}

open Call (wp onRaise)

theorem wp_getOr404 {f : Migration → Call Exc ServiceState α} (hs : R s) :
    wp (getOr404 x migrationId >>= f) (onRaise R) s ↔ ∀ record, Finds x migrationId s record →
      wp (f record) (onRaise R) (s.load migrationId record) := by
  unfold getOr404 Finds
  cases x.lookup with
  | returns =>
    cases hrow : s.migrations.get? migrationId with
    | none => simp [Call.wp_read, Call.wp_raise, hrow, hs]
    | some record => simp [Call.wp_read, Call.wp_pure, hrow]
  | raises exc => simp [hs]
  | raisesAfter exc => simp [hs]

/-- The rollback of `get_db` takes back what the session changed, and nothing else. -/
theorem allOrNothing_iff {c : Call Exc ServiceState α} :
    AllOrNothing migrationId c s ↔ wp c (onRaise (s.Untouched migrationId)) s := by
  unfold AllOrNothing
  rw [Call.forall_raised_iff]
  unfold getDb
  rw [Call.wp_tryFinally, Call.wp_tryExcept]
  constructor
  · intro h
    refine Call.wp_mono h (fun _ _ _ => trivial) ?_ (fun _ _ => trivial)
    intro exc s' huntouched
    exact ⟨huntouched.record, huntouched.enqueued, huntouched.revoked⟩
  · intro h
    refine Call.wp_mono h (fun _ _ _ => trivial) ?_ (fun _ _ => trivial)
    intro exc s' huntouched
    exact ⟨huntouched.record, huntouched.enqueued, huntouched.revoked⟩

/-- The commit of a session that changed the row as it is committed. -/
theorem commit_get? {record : Migration} {change : Migration → Migration}
    (hrow : s.migrations.get? migrationId = some record) :
    ((s.load migrationId record).assign change).commit.migrations.get? migrationId =
      some (change record) := by
  simp [ServiceState.load, ServiceState.assign, ServiceState.commit, hrow, Migration.flush_self]

/-- A commit that changes the status shows in the committed row. -/
theorem not_untouched_commit {record : Migration} {change : Migration → Migration}
    (hrow : s.migrations.get? migrationId = some record)
    (hchange : (change record).status ≠ record.status) :
    ¬ s.Untouched migrationId ((s.load migrationId record).assign change).commit := by
  intro h
  have hrecord := h.record
  rw [commit_get? hrow, hrow] at hrecord
  exact hchange (congrArg Migration.status (Option.some.inj hrecord))

theorem untouched_refl : s.Untouched migrationId s := ⟨rfl, rfl, rfl⟩

theorem untouched_loaded {record : Migration} :
    s.Untouched migrationId (s.load migrationId record) := ⟨rfl, rfl, rfl⟩

/-- The checks of both operations: they let a record through unchanged, or raise. -/
theorem wp_check (p : Migration → Prop) (check : Migration → Except Exc {r // p r})
    {record : Migration} {f : {r // p r} → Call Exc ServiceState α} (hs : R s)
    (hok : ∀ hp : p record, check record = .ok ⟨record, hp⟩)
    (herror : ¬ p record → ∃ exc, check record = .error exc) :
    wp (Call.ofExcept (check record) >>= f) (onRaise R) s ↔
      ∀ hp : p record, wp (f ⟨record, hp⟩) (onRaise R) s := by
  rw [Call.wp_bind_ofExcept_onRaise hs]
  constructor
  · intro h hp
    exact h _ (hok hp)
  · intro h passed hpassed
    by_cases hp : p record
    · rw [hok hp] at hpassed
      cases hpassed
      exact h hp
    · obtain ⟨exc, hexc⟩ := herror hp
      rw [hexc] at hpassed
      cases hpassed

/-- A raising start has enqueued a task exactly where its broker call took effect first. -/
theorem start_allOrNothing_iff :
    AllOrNothing migrationId (startMigration x migrationId) s ↔
      ¬ StartsHalfway x migrationId s := by
  simp only [StartsHalfway, not_exists, not_and]
  rw [allOrNothing_iff]
  unfold startMigration
  rw [wp_getOr404 untouched_refl]
  apply forall_congr'
  intro record
  apply forall_congr'
  intro hfinds
  rw [wp_check (fun r => r.status.startable = true) checkStart untouched_loaded
    (fun hp => dif_pos hp) (fun hp => ⟨_, dif_neg hp⟩)]
  apply forall_congr'
  intro hstartable
  apply Call.wp_two_effects untouched_loaded
  · intro h
    simpa using h.enqueued
  · intro h
    simpa using h.enqueued
  · intro h
    simpa using h.enqueued

/-- A raising cancel has revoked the task, or written the record, exactly where it got halfway. -/
theorem cancel_allOrNothing_iff :
    AllOrNothing migrationId (cancelMigration x migrationId) s ↔
      ¬ CancelsHalfway x migrationId s := by
  simp only [CancelsHalfway, not_exists, not_and]
  rw [allOrNothing_iff]
  unfold cancelMigration
  rw [wp_getOr404 untouched_refl]
  apply forall_congr'
  intro record
  apply forall_congr'
  intro hfinds
  rw [wp_check (fun r => r.status = .RUNNING) checkCancel untouched_loaded
    (fun hp => dif_pos hp) (fun hp => ⟨_, dif_neg hp⟩)]
  apply forall_congr'
  intro hrunning
  unfold revokeTask
  cases revokedTask record with
  | none =>
    apply Call.wp_one_effect
    · exact ⟨rfl, rfl, rfl⟩
    · apply not_untouched_commit hfinds.2
      change MigrationStatus.CANCELLED ≠ record.status
      rw [hrunning]
      decide
  | some taskId =>
    apply Call.wp_two_effects untouched_loaded
    · intro h
      simpa using h.revoked
    · intro h
      simpa using h.revoked
    · intro h
      simpa using h.revoked

/-- The operations are all or nothing exactly where neither gets halfway. -/
theorem operations_allOrNothing_iff (x : ServiceContext) (migrationId : String)
    (s : ServiceState) :
    (AllOrNothing migrationId (startMigration x migrationId) s ↔
        ¬ StartsHalfway x migrationId s) ∧
      (AllOrNothing migrationId (cancelMigration x migrationId) s ↔
        ¬ CancelsHalfway x migrationId s) :=
  ⟨start_allOrNothing_iff, cancel_allOrNothing_iff⟩

private def connectionLost : Exc := ⟨.other, "connection is closed"⟩

private def commitLost : ServiceContext :=
  { commit := .raises connectionLost, taskId := "task-1", now := 5 }

private def onlyMigration (record : Migration) : ServiceState :=
  { migrations := Dict.empty.set "m" record }

private def pendingRecord : Migration := createdRecord "source" "destination" none none 1 10

private def runningRecord : Migration := startedRecord pendingRecord "task-0" 3

/-- The commit of a start is lost: its task is queued and the row is PENDING. The commit of a
cancel is lost: the task is revoked and the row is RUNNING. -/
theorem halfway_commitLost :
    (∃ s', getDb (startMigration commitLost "m") (onlyMigration pendingRecord) =
        (.raised connectionLost, s') ∧ s'.enqueued = [("task-1", "m")] ∧
        s'.migrations.get? "m" = some pendingRecord) ∧
      (∃ s', getDb (cancelMigration commitLost "m") (onlyMigration runningRecord) =
        (.raised connectionLost, s') ∧ s'.revoked = ["task-0"] ∧
        s'.migrations.get? "m" = some runningRecord) ∧
      ¬ AllOrNothing "m" (startMigration commitLost "m") (onlyMigration pendingRecord) ∧
      ¬ AllOrNothing "m" (cancelMigration commitLost "m") (onlyMigration runningRecord) := by
  refine ⟨⟨_, rfl, rfl, rfl⟩, ⟨_, rfl, rfl, rfl⟩, ?_, ?_⟩
  · intro h
    exact absurd (h connectionLost _ rfl).enqueued (by decide)
  · intro h
    exact absurd (h connectionLost _ rfl).revoked (by decide)

end MigrationService

end DataBridge
