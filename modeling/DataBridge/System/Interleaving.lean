import DataBridge.Framework.Transition
import DataBridge.Services.MigrationService
import DataBridge.Workers.MigrationTasks

namespace DataBridge

/-- Where a call of `start_migration` stands. -/
inductive StartState where
  | begun
  | loaded (record : Migration)
  | checked (record : Startable)
  | enqueued (record : Startable) (taskId : String) (now : Nat)
  | returned (taskId : String)
  | raised (exc : Exc)

/-- The steps of `start_migration`; any of them may raise instead. -/
inductive StartAction where
  | read
  | check
  | enqueue (taskId : String) (now : Nat)
  | commit
  | fail (exc : Exc)

namespace StartState

def next (committed : Migration) : StartState → StartAction → Option StartState
  | .begun, .read => some (.loaded committed)
  | .loaded record, .check =>
    match checkStart record with
    | .ok passed => some (.checked passed)
    | .error exc => some (.raised exc)
  | .checked record, .enqueue taskId now => some (.enqueued record taskId now)
  | .enqueued _ taskId _, .commit => some (.returned taskId)
  | .begun, .fail exc => some (.raised exc)
  | .loaded _, .fail exc => some (.raised exc)
  | .checked _, .fail exc => some (.raised exc)
  | .enqueued _ _ _, .fail exc => some (.raised exc)
  | _, _ => none

/-- The row after the action. -/
def row (committed : Migration) : StartState → StartAction → Migration
  | .enqueued record taskId now, .commit =>
    record.1.flush (startedRecord record.1 taskId now) committed
  | _, _ => committed

end StartState

/-- Where a call of `cancel_migration` stands. -/
inductive CancelState where
  | begun
  | loaded (record : Migration)
  | checked (record : Cancellable)
  | revoked (record : Cancellable) (now : Nat)
  | returned
  | raised (exc : Exc)

inductive CancelAction where
  | read
  | check
  | revoke (now : Nat)
  | commit
  | fail (exc : Exc)

namespace CancelState

def next (committed : Migration) : CancelState → CancelAction → Option CancelState
  | .begun, .read => some (.loaded committed)
  | .loaded record, .check =>
    match checkCancel record with
    | .ok passed => some (.checked passed)
    | .error exc => some (.raised exc)
  | .checked record, .revoke now => some (.revoked record now)
  | .revoked _ _, .commit => some .returned
  | .begun, .fail exc => some (.raised exc)
  | .loaded _, .fail exc => some (.raised exc)
  | .checked _, .fail exc => some (.raised exc)
  | .revoked _ _, .fail exc => some (.raised exc)
  | _, _ => none

def row (committed : Migration) : CancelState → CancelAction → Migration
  | .revoked record now, .commit => record.1.flush (cancelledRecord record.1 now) committed
  | _, _ => committed

end CancelState

/-- A session in which the worker changes the record. `_mark_failed` is called by the handlers of
`_execute` and by `on_failure`. -/
inductive Session where
  | mark
  | progress (tableName : String) (totalProcessed : Nat)
  | finalise (result : ExecResult)
  | handler (error : String)
  | onFailure (error : String)

/-- Where the worker stands in one run of the task. -/
inductive RunState where
  | began
  | session (op : Session) (record : Migration)
  | marked
  | running
  | completed (result : ExecResult)
  | finalised
  | failing (error : String)
  | failed
  | raised (error : String)
  | ended
  | dead

/-- The steps of a run. An exception in a session or between two of them is `raise`, and so is the
one a handler raises again after `_mark_failed`; the executor may carry on after one from
`on_progress`; the process may die, its message acknowledged or not. -/
inductive RunAction where
  | read
  | progress (tableName : String) (totalProcessed : Nat)
  | commit (now : Nat)
  | advance
  | complete (result : ExecResult)
  | raise (error : String)
  | swallow
  | die (acked : Bool)

namespace Session

def change (record : Migration) (now : Nat) : Session → Migration
  | .mark => runningRecord record now
  | .progress tableName totalProcessed => progressRecord record tableName totalProcessed
  | .finalise result => finalRecord record result now
  | .handler error => failedRecord record error now
  | .onFailure error => failedRecord record error now

/-- The status the session sets, if it sets one. -/
def sets : Session → Option MigrationStatus
  | .mark => some .RUNNING
  | .progress _ _ => none
  | .finalise result => some (if result.failedTables = [] then .COMPLETED else .FAILED)
  | .handler _ => some .FAILED
  | .onFailure _ => some .FAILED

def committed : Session → RunState
  | .mark => .marked
  | .progress _ _ => .running
  | .finalise _ => .finalised
  | .handler _ => .failed
  | .onFailure _ => .ended

def interrupted (error : String) : Session → RunState
  | .mark => .raised error
  | .progress _ _ => .failing error
  | .finalise _ => .raised error
  | .handler _ => .raised error
  | .onFailure _ => .ended

theorem change_status_of_sets {op : Session} {status : MigrationStatus} (h : op.sets = some status)
    (record : Migration) (now : Nat) : (op.change record now).status = status := by
  cases op <;> cases h <;> rfl

end Session

namespace RunState

/-- Is the run still going on? -/
def active : RunState → Bool
  | .ended => false
  | .dead => false
  | _ => true

def next (committed : Migration) : RunState → RunAction → Option RunState
  | .began, .read => some (.session .mark committed)
  | .running, .progress tableName total => some (.session (.progress tableName total) committed)
  | .completed result, .read => some (.session (.finalise result) committed)
  | .failing error, .read => some (.session (.handler error) committed)
  | .raised error, .read => some (.session (.onFailure error) committed)
  | .session op _, .commit _ => some op.committed
  | .marked, .advance => some .running
  | .running, .complete result => some (.completed result)
  | .finalised, .advance => some .ended
  | .session (.progress _ _) _, .swallow => some .running
  | .began, .raise error => some (.raised error)
  | .marked, .raise error => some (.raised error)
  | .running, .raise error => some (.failing error)
  | .completed _, .raise error => some (.raised error)
  | .finalised, .raise error => some (.raised error)
  | .failing _, .raise error => some (.raised error)
  | .failed, .raise error => some (.raised error)
  | .raised _, .raise _ => some .ended
  | .session op _, .raise error => some (op.interrupted error)
  | state, .die _ => if state.active then some .dead else none
  | _, _ => none

def row (committed : Migration) : RunState → RunAction → Migration
  | .session op record, .commit now => record.flush (op.change record now) committed
  | _, _ => committed

end RunState

/-- One run of a task, and the status that its last status session set. -/
structure Run where
  taskId : String
  state : RunState := .began
  wrote : Option MigrationStatus := none

namespace Run

def wroteAfter (run : Run) : RunAction → Option MigrationStatus
  | .commit _ =>
    match run.state with
    | .session op _ => op.sets.or run.wrote
    | _ => run.wrote
  | _ => run.wrote

/-- `task_acks_late`: the message is acknowledged when the run ends. -/
def acksAfter (state : RunState) : RunAction → Bool
  | .die acked => acked
  | _ => !state.active

end Run

/-- What the broker and the workers know of an enqueued task. -/
structure TaskEntry where
  acked : Bool := false
  revoked : Bool := false

abbrev Broker := Dict String TaskEntry

namespace Broker

/-- `run_migration_task.delay`; a task id is never used twice. -/
def accept (tasks : Broker) : StartAction → Option Broker
  | .enqueue taskId _ => if taskId ∈ tasks.keys then none else some (tasks.set taskId {})
  | _ => some tasks

def ack (tasks : Broker) (taskId : String) : Broker :=
  tasks.mapValues fun id entry => if id = taskId then { entry with acked := true } else entry

def revoke (tasks : Broker) (taskId : String) : Broker :=
  tasks.mapValues fun id entry => if id = taskId then { entry with revoked := true } else entry

/-- `if record.celery_task_id: celery_app.control.revoke(...)`. -/
def revokeFor (tasks : Broker) : CancelState → CancelAction → Broker
  | .checked record, .revoke _ =>
    match record.1.celeryTaskId with
    | none => tasks
    | some taskId => if taskId = "" then tasks else tasks.revoke taskId
  | _, _ => tasks

end Broker

/-- One migration: its row, the requests on it, its tasks and their runs. -/
structure MigrationSystem where
  record : Migration
  starts : List StartState := []
  cancels : List CancelState := []
  tasks : Broker := Dict.empty
  runs : List Run := []

/-- The actions of the requests, of the broker and of the workers. A message not yet acknowledged
may be delivered again. A revoke that arrives in time drops the message or ends a run. -/
inductive Action where
  | beginStart
  | start (i : Nat) (a : StartAction)
  | beginCancel
  | cancel (i : Nat) (a : CancelAction)
  | deliver (taskId : String)
  | discard (taskId : String)
  | terminate (i : Nat)
  | run (i : Nat) (a : RunAction)

namespace MigrationSystem

def taskEntry (s : MigrationSystem) (taskId : String) : Option TaskEntry := s.tasks.get? taskId

def stepStart (s : MigrationSystem) (i : Nat) (a : StartAction) : Option MigrationSystem := do
  let state ← s.starts[i]?
  let state' ← state.next s.record a
  let tasks ← s.tasks.accept a
  some { s with record := state.row s.record a, starts := s.starts.set i state', tasks }

def stepCancel (s : MigrationSystem) (i : Nat) (a : CancelAction) : Option MigrationSystem := do
  let state ← s.cancels[i]?
  let state' ← state.next s.record a
  some { s with
    record := state.row s.record a
    cancels := s.cancels.set i state'
    tasks := s.tasks.revokeFor state a }

def deliver (s : MigrationSystem) (taskId : String) : Option MigrationSystem := do
  let entry ← s.taskEntry taskId
  if entry.acked then none else some { s with runs := s.runs ++ [{ taskId }] }

def discard (s : MigrationSystem) (taskId : String) : Option MigrationSystem := do
  let entry ← s.taskEntry taskId
  if entry.revoked then some { s with tasks := s.tasks.ack taskId } else none

def terminate (s : MigrationSystem) (i : Nat) : Option MigrationSystem := do
  let run ← s.runs[i]?
  let entry ← s.taskEntry run.taskId
  if entry.revoked && run.state.active then
    some { s with
      runs := s.runs.set i { run with state := .dead }
      tasks := s.tasks.ack run.taskId }
  else none

def stepRun (s : MigrationSystem) (i : Nat) (a : RunAction) : Option MigrationSystem := do
  let run ← s.runs[i]?
  let state ← run.state.next s.record a
  some { s with
    record := run.state.row s.record a
    runs := s.runs.set i { run with state, wrote := run.wroteAfter a }
    tasks := if Run.acksAfter state a then s.tasks.ack run.taskId else s.tasks }

def step (s : MigrationSystem) : Action → Option MigrationSystem
  | .beginStart => some { s with starts := s.starts ++ [.begun] }
  | .start i a => s.stepStart i a
  | .beginCancel => some { s with cancels := s.cancels ++ [.begun] }
  | .cancel i a => s.stepCancel i a
  | .deliver taskId => s.deliver taskId
  | .discard taskId => s.discard taskId
  | .terminate i => s.terminate i
  | .run i a => s.stepRun i a

section rules

variable {s t : MigrationSystem}

/-- A start step moves one request; only its commit changes the row and only its enqueue the
broker. -/
theorem stepStart_iff {i : Nat} {a : StartAction} : s.stepStart i a = some t ↔
    ∃ state state' tasks, s.starts[i]? = some state ∧ state.next s.record a = some state' ∧
      s.tasks.accept a = some tasks ∧
      { s with record := state.row s.record a, starts := s.starts.set i state', tasks } = t := by
  simp only [stepStart, Option.bind_eq_bind, Option.bind_eq_some_iff, Option.some.injEq]
  constructor
  · intro h
    obtain ⟨state, hstate, state', hnext, tasks, htasks, he⟩ := h
    exact ⟨state, state', tasks, hstate, hnext, htasks, he⟩
  · intro h
    obtain ⟨state, state', tasks, hstate, hnext, htasks, he⟩ := h
    exact ⟨state, hstate, state', hnext, tasks, htasks, he⟩

theorem stepCancel_iff {i : Nat} {a : CancelAction} : s.stepCancel i a = some t ↔
    ∃ state state', s.cancels[i]? = some state ∧ state.next s.record a = some state' ∧
      { s with
        record := state.row s.record a
        cancels := s.cancels.set i state'
        tasks := s.tasks.revokeFor state a } = t := by
  simp only [stepCancel, Option.bind_eq_bind, Option.bind_eq_some_iff, Option.some.injEq]
  constructor
  · intro h
    obtain ⟨state, hstate, state', hnext, he⟩ := h
    exact ⟨state, state', hstate, hnext, he⟩
  · intro h
    obtain ⟨state, state', hstate, hnext, he⟩ := h
    exact ⟨state, hstate, state', hnext, he⟩

theorem deliver_iff {taskId : String} : s.deliver taskId = some t ↔
    ∃ entry, s.taskEntry taskId = some entry ∧ entry.acked = false ∧
      { s with runs := s.runs ++ [{ taskId }] } = t := by
  simp only [deliver, Option.bind_eq_bind, Option.bind_eq_some_iff]
  constructor
  · intro h
    obtain ⟨entry, hentry, he⟩ := h
    by_cases hacked : entry.acked = true
    · rw [if_pos hacked] at he
      cases he
    · rw [if_neg hacked] at he
      exact ⟨entry, hentry, by simpa using hacked, Option.some.inj he⟩
  · intro h
    obtain ⟨entry, hentry, hacked, he⟩ := h
    exact ⟨entry, hentry, by simp [hacked, he]⟩

theorem discard_iff {taskId : String} : s.discard taskId = some t ↔
    ∃ entry, s.taskEntry taskId = some entry ∧ entry.revoked = true ∧
      { s with tasks := s.tasks.ack taskId } = t := by
  simp only [discard, Option.bind_eq_bind, Option.bind_eq_some_iff]
  constructor
  · intro h
    obtain ⟨entry, hentry, he⟩ := h
    by_cases hrevoked : entry.revoked = true
    · rw [if_pos hrevoked] at he
      exact ⟨entry, hentry, hrevoked, Option.some.inj he⟩
    · rw [if_neg hrevoked] at he
      cases he
  · intro h
    obtain ⟨entry, hentry, hrevoked, he⟩ := h
    exact ⟨entry, hentry, by simp [hrevoked, he]⟩

theorem terminate_spec {i : Nat} (h : s.terminate i = some t) :
    ∃ run, s.runs[i]? = some run ∧ run.state.active = true ∧
      { s with
        runs := s.runs.set i { run with state := .dead }
        tasks := s.tasks.ack run.taskId } = t := by
  simp only [terminate, Option.bind_eq_bind, Option.bind_eq_some_iff] at h
  obtain ⟨run, hrun, entry, -, he⟩ := h
  by_cases hboth : (entry.revoked && run.state.active) = true
  · rw [if_pos hboth] at he
    rw [Bool.and_eq_true] at hboth
    exact ⟨run, hrun, hboth.2, Option.some.inj he⟩
  · rw [if_neg hboth] at he
    cases he

/-- A step of a run moves that run; only its commits change the row. -/
theorem stepRun_iff {i : Nat} {a : RunAction} : s.stepRun i a = some t ↔
    ∃ run state, s.runs[i]? = some run ∧ run.state.next s.record a = some state ∧
      { s with
        record := run.state.row s.record a
        runs := s.runs.set i { run with state, wrote := run.wroteAfter a }
        tasks := if Run.acksAfter state a then s.tasks.ack run.taskId else s.tasks } = t := by
  simp only [stepRun, Option.bind_eq_bind, Option.bind_eq_some_iff, Option.some.injEq]
  constructor
  · intro h
    obtain ⟨run, hrun, state, hnext, he⟩ := h
    exact ⟨run, state, hrun, hnext, he⟩
  · intro h
    obtain ⟨run, state, hrun, hnext, he⟩ := h
    exact ⟨run, hrun, state, hnext, he⟩

theorem getElem?_set_of_some {α : Type} {xs : List α} {i : Nat} {x y : α} (h : xs[i]? = some x) :
    (xs.set i y)[i]? = some y := by
  obtain ⟨hi, -⟩ := List.getElem?_eq_some_iff.mp h
  rw [List.getElem?_set_self hi]

/-- An enabled step of request `i` that is not its enqueue. -/
theorem exists_stepStart {i : Nat} {a : StartAction} {state state' : StartState}
    (hi : s.starts[i]? = some state) (hnext : state.next s.record a = some state')
    (haccept : s.tasks.accept a = some s.tasks) : ∃ u, s.step (.start i a) = some u ∧
      u.record = state.row s.record a ∧ u.starts = s.starts.set i state' ∧ u.tasks = s.tasks ∧
      u.runs = s.runs :=
  ⟨_, stepStart_iff.mpr ⟨state, state', s.tasks, hi, hnext, haccept, rfl⟩, rfl, rfl, rfl, rfl⟩

/-- An enabled step of run `i`. -/
theorem exists_stepRun {i : Nat} {a : RunAction} {run : Run} {state : RunState}
    (hi : s.runs[i]? = some run) (hnext : run.state.next s.record a = some state) :
    ∃ u, s.step (.run i a) = some u ∧ u.record = run.state.row s.record a ∧
      u.starts = s.starts ∧ ∃ run', u.runs[i]? = some run' ∧ run'.state = state :=
  ⟨_, stepRun_iff.mpr ⟨run, state, hi, hnext, rfl⟩, rfl, rfl, _, getElem?_set_of_some hi, rfl⟩

end rules

end MigrationSystem

theorem StartState.next_check (committed : Migration) {record : Migration}
    (h : record.status.startable = true) :
    (StartState.loaded record).next committed .check = some (.checked ⟨record, h⟩) := by
  rw [StartState.next, checkStart, dif_pos h]

namespace RunState

/-- Only a run that is still going on takes a step. -/
theorem active_of_next {committed : Migration} {state state' : RunState} {a : RunAction}
    (h : state.next committed a = some state') : state.active = true := by
  cases state with
  | ended => cases a <;> simp [next, active] at h
  | dead => cases a <;> simp [next, active] at h
  | _ => rfl

end RunState

namespace Broker

theorem ack_get? (tasks : Broker) (taskId id : String) : (tasks.ack taskId).get? id =
    (tasks.get? id).map fun entry =>
      if id = taskId then { entry with acked := true } else entry := by
  rw [ack, Dict.get?_mapValues]

theorem revoke_get? (tasks : Broker) (taskId id : String) : (tasks.revoke taskId).get? id =
    (tasks.get? id).map fun entry =>
      if id = taskId then { entry with revoked := true } else entry := by
  rw [revoke, Dict.get?_mapValues]

end Broker

def migrationSystem : Transition MigrationSystem Action := ⟨MigrationSystem.step⟩

theorem MigrationSystem.reaches_step {s t : MigrationSystem} {a : Action}
    (h : s.step a = some t) : migrationSystem.Reaches Transition.anyAction s t :=
  Transition.Reaches.head (a := a) trivial h (Transition.Reaches.refl t)

end DataBridge
