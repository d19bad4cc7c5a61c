import DataBridge.Framework.Owned
import DataBridge.System.Requests
import DataBridge.System.Restarted

namespace DataBridge

/-- All migrations of an application: the rows of its table, and the requests, the tasks and the
runs, each with the migration it is for. -/
structure ApplicationSystem where
  migrations : Dict String Migration := Dict.empty
  starts : List (String × StartState) := []
  cancels : List (String × CancelState) := []
  tasks : Dict String (String × TaskEntry) := Dict.empty
  runs : List (String × Run) := []

/-- A request may come for any id, one that names no migration included. -/
inductive ApplicationAction where
  | create (migrationId : String) (record : Migration)
  | beginStart (migrationId : String)
  | start (i : Nat) (a : StartAction)
  | beginCancel (migrationId : String)
  | cancel (i : Nat) (a : CancelAction)
  | deliver (taskId : String)
  | discard (taskId : String)
  | terminate (i : Nat)
  | run (i : Nat) (a : RunAction)

/-- A start request for which there is no row: `_get_or_404`. -/
def StartState.missing (migrationId : String) : StartState → StartAction → Option StartState
  | .begun, .read => some (.raised (migrationNotFound migrationId))
  | .begun, .fail exc => some (.raised exc)
  | _, _ => none

/-- A cancel request for which there is no row. -/
def CancelState.missing (migrationId : String) : CancelState → CancelAction → Option CancelState
  | .begun, .read => some (.raised (migrationNotFound migrationId))
  | .begun, .fail exc => some (.raised exc)
  | _, _ => none

namespace ApplicationSystem

variable (s : ApplicationSystem)

/-- `run_migration_task.delay(migration_id)`; a task id is never used twice. -/
def accept (migrationId : String) : StartAction → Option (Dict String (String × TaskEntry))
  | .enqueue taskId _ =>
    if taskId ∈ s.tasks.keys then none else some (s.tasks.set taskId (migrationId, {}))
  | _ => some s.tasks

def ack (taskId : String) : Dict String (String × TaskEntry) :=
  s.tasks.mapValues fun id e => (e.1, if id = taskId then { e.2 with acked := true } else e.2)

def revoke (taskId : String) : Dict String (String × TaskEntry) :=
  s.tasks.mapValues fun id e => (e.1, if id = taskId then { e.2 with revoked := true } else e.2)

def revokeFor : CancelState → CancelAction → Dict String (String × TaskEntry)
  | .checked record, .revoke _ =>
    match record.1.celeryTaskId with
    | none => s.tasks
    | some taskId => if taskId = "" then s.tasks else s.revoke taskId
  | _, _ => s.tasks

/-- `create_migration` commits the record of a new id. -/
def create (migrationId : String) (record : Migration) : Option ApplicationSystem :=
  if migrationId ∉ s.migrations.keys ∧ record.fresh = record then
    some { s with migrations := s.migrations.set migrationId record }
  else none

def stepStart (i : Nat) (a : StartAction) : Option ApplicationSystem := do
  let (migrationId, state) ← s.starts[i]?
  match s.migrations.get? migrationId with
  | none => do
    let state' ← state.missing migrationId a
    some { s with starts := s.starts.set i (migrationId, state') }
  | some committed => do
    let state' ← state.next committed a
    let tasks ← s.accept migrationId a
    some { s with
      migrations := s.migrations.set migrationId (state.row committed a)
      starts := s.starts.set i (migrationId, state')
      tasks }

def stepCancel (i : Nat) (a : CancelAction) : Option ApplicationSystem := do
  let (migrationId, state) ← s.cancels[i]?
  match s.migrations.get? migrationId with
  | none => do
    let state' ← state.missing migrationId a
    some { s with cancels := s.cancels.set i (migrationId, state') }
  | some committed => do
    let state' ← state.next committed a
    some { s with
      migrations := s.migrations.set migrationId (state.row committed a)
      cancels := s.cancels.set i (migrationId, state')
      tasks := s.revokeFor state a }

def deliver (taskId : String) : Option ApplicationSystem := do
  let (migrationId, entry) ← s.tasks.get? taskId
  if entry.acked then none else some { s with runs := s.runs ++ [(migrationId, { taskId })] }

def discard (taskId : String) : Option ApplicationSystem := do
  let (_, entry) ← s.tasks.get? taskId
  if entry.revoked then some { s with tasks := s.ack taskId } else none

def terminate (i : Nat) : Option ApplicationSystem := do
  let (migrationId, run) ← s.runs[i]?
  let (_, entry) ← s.tasks.get? run.taskId
  if entry.revoked && run.state.active then
    some { s with
      runs := s.runs.set i (migrationId, { run with state := .dead })
      tasks := s.ack run.taskId }
  else none

/-- No row is ever deleted, so a run finds the row of its migration. -/
def stepRun (i : Nat) (a : RunAction) : Option ApplicationSystem := do
  let (migrationId, run) ← s.runs[i]?
  let committed ← s.migrations.get? migrationId
  let state ← run.state.next committed a
  some { s with
    migrations := s.migrations.set migrationId (run.state.row committed a)
    runs := s.runs.set i (migrationId, { run with state, wrote := run.wroteAfter a })
    tasks := if Run.acksAfter state a then s.ack run.taskId else s.tasks }

def step : ApplicationAction → Option ApplicationSystem
  | .create migrationId record => s.create migrationId record
  | .beginStart migrationId => some { s with starts := s.starts ++ [(migrationId, .begun)] }
  | .start i a => s.stepStart i a
  | .beginCancel migrationId => some { s with cancels := s.cancels ++ [(migrationId, .begun)] }
  | .cancel i a => s.stepCancel i a
  | .deliver taskId => s.deliver taskId
  | .discard taskId => s.discard taskId
  | .terminate i => s.terminate i
  | .run i a => s.stepRun i a

/-- Any interleaving of the requests, the broker and the workers of all migrations. -/
def system : Transition ApplicationSystem ApplicationAction := ⟨step⟩

/-- What the application has of one migration, once it is created. -/
def project (migrationId : String) : Option MigrationSystem :=
  (s.migrations.get? migrationId).map fun record =>
    { record
      starts := Owned.of migrationId s.starts
      cancels := Owned.of migrationId s.cancels
      tasks := Owned.dict migrationId s.tasks
      runs := Owned.of migrationId s.runs }

/-! ## Every task has one owner -/

/-- The task was enqueued for the migration. -/
def OwnsTask (migrationId taskId : String) : Prop :=
  ∃ entry, s.tasks.get? taskId = some (migrationId, entry)

variable {s} {t : ApplicationSystem}

theorem ack_get? (taskId id : String) : (s.ack taskId).get? id =
    (s.tasks.get? id).map fun e =>
      (e.1, if id = taskId then { e.2 with acked := true } else e.2) := by
  rw [ack, Dict.get?_mapValues]

theorem revoke_get? (taskId id : String) : (s.revoke taskId).get? id =
    (s.tasks.get? id).map fun e =>
      (e.1, if id = taskId then { e.2 with revoked := true } else e.2) := by
  rw [revoke, Dict.get?_mapValues]

theorem revokeFor_cases (state : CancelState) (a : CancelAction) :
    s.revokeFor state a = s.tasks ∨
      ∃ record now taskId, state = .checked record ∧ a = .revoke now ∧
        record.1.celeryTaskId = some taskId ∧ taskId ≠ "" ∧
        s.revokeFor state a = s.revoke taskId := by
  unfold revokeFor
  split
  · rename_i record now
    split
    · exact Or.inl rfl
    · rename_i taskId htask
      by_cases hempty : taskId = ""
      · exact Or.inl (if_pos hempty)
      · exact Or.inr ⟨record, now, taskId, rfl, rfl, htask, hempty, if_neg hempty⟩
  · exact Or.inl rfl

theorem accept_cases {migrationId : String} {a : StartAction}
    {tasks : Dict String (String × TaskEntry)} (h : s.accept migrationId a = some tasks) :
    (∃ taskId now, a = .enqueue taskId now ∧ taskId ∉ s.tasks.keys ∧
      tasks = s.tasks.set taskId (migrationId, {})) ∨
    ((∀ taskId now, a ≠ .enqueue taskId now) ∧ tasks = s.tasks) := by
  cases a with
  | enqueue taskId now =>
    obtain ⟨hfresh, htasks⟩ := Option.ite_none_left_eq_some.mp h
    exact Or.inl ⟨taskId, now, rfl, hfresh, (Option.some.inj htasks).symm⟩
  | _ => exact Or.inr ⟨fun _ _ heq => (by cases heq), (Option.some.inj h).symm⟩

/-- Every task keeps its owner. -/
def KeepsOwners (s t : ApplicationSystem) : Prop :=
  ∀ migrationId taskId, s.OwnsTask migrationId taskId → t.OwnsTask migrationId taskId

theorem keepsOwners_of_tasks (h : t.tasks = s.tasks) : KeepsOwners s t := by
  intro migrationId taskId howns
  rw [OwnsTask, h]
  exact howns

theorem keepsOwners_of_accept (migrationId : String) (a : StartAction)
    (h : s.accept migrationId a = some t.tasks) : KeepsOwners s t := by
  rcases accept_cases h with ⟨taskId, now, -, hfresh, htasks⟩ | ⟨-, htasks⟩
  · rintro owner task ⟨entry, hget⟩
    have hne : task ≠ taskId := fun heq => hfresh (heq ▸ Dict.mem_keys_of_get? hget)
    exact ⟨entry, by rw [htasks, Dict.get?_set, if_neg hne, hget]⟩
  · exact keepsOwners_of_tasks htasks

theorem keepsOwners_of_ack (taskId : String) (h : t.tasks = s.ack taskId) : KeepsOwners s t := by
  rintro owner task ⟨entry, hget⟩
  exact ⟨_, by rw [h, ack_get?, hget, Option.map_some]⟩

theorem keepsOwners_of_revokeFor (state : CancelState) (a : CancelAction)
    (h : t.tasks = s.revokeFor state a) : KeepsOwners s t := by
  rcases s.revokeFor_cases state a with hsame | ⟨_, _, taskId, -, -, -, -, hrevoke⟩
  · exact keepsOwners_of_tasks (h.trans hsame)
  · rintro owner task ⟨entry, hget⟩
    exact ⟨_, by rw [h, hrevoke, revoke_get?, hget, Option.map_some]⟩

end ApplicationSystem

/-- The task id that a start request is about to write. -/
def StartState.taskId? : StartState → Option String
  | .enqueued _ taskId _ => some taskId
  | _ => none

/-- The task id in the row that a cancel request has loaded. -/
def CancelState.taskId? : CancelState → Option String
  | .loaded record => record.celeryTaskId
  | .checked record => record.1.celeryTaskId
  | .revoked record _ => record.1.celeryTaskId
  | _ => none

namespace RequestKind

def missing (migrationId : String) : (k : RequestKind) → k.State → k.Step → Option k.State
  | start => StartState.missing migrationId
  | cancel => CancelState.missing migrationId

def taskId? : (k : RequestKind) → k.State → Option String
  | start => StartState.taskId?
  | cancel => CancelState.taskId?

/-- Call `i` of the kind, of those for all migrations, takes a step. -/
def actionOf : (k : RequestKind) → Nat → k.Step → ApplicationAction
  | start => .start
  | cancel => .cancel

end RequestKind

/-- A new row names the old task, or the one that the request enqueued. -/
theorem StartState.row_taskId (committed : Migration) (state : StartState) (a : StartAction) :
    (state.row committed a).celeryTaskId = committed.celeryTaskId ∨
      (state.row committed a).celeryTaskId = state.taskId? := by
  unfold row
  split
  · rename_i record taskId now
    exact ite_eq_or_eq _ _ _
  · exact Or.inl rfl

theorem CancelState.row_taskId (committed : Migration) (state : CancelState) (a : CancelAction) :
    (state.row committed a).celeryTaskId = committed.celeryTaskId := by
  unfold row
  split
  · simp [Migration.flush, cancelledRecord, flushColumn]
  · rfl

theorem RunState.row_taskId (committed : Migration) (state : RunState) (a : RunAction) :
    (state.row committed a).celeryTaskId = committed.celeryTaskId := by
  unfold row
  split
  · rename_i op record now
    cases op <;> simp [Migration.flush, Session.change, runningRecord, progressRecord, finalRecord,
      failedRecord, flushColumn]
  · rfl

theorem RequestKind.row_taskId (k : RequestKind) (committed : Migration) (state : k.State)
    (a : k.Step) : (k.row committed state a).celeryTaskId = committed.celeryTaskId ∨
      (k.row committed state a).celeryTaskId = k.taskId? state := by
  cases k with
  | start => exact StartState.row_taskId committed state a
  | cancel => exact Or.inl (CancelState.row_taskId committed state a)

theorem StartState.next_taskId {committed : Migration} {state state' : StartState} {a : StartAction}
    (h : state.next committed a = some state') {taskId : String}
    (htask : state'.taskId? = some taskId) : ∃ now, a = .enqueue taskId now := by
  cases state <;> cases a <;> simp only [next, Option.some.injEq, reduceCtorEq] at h
  case checked.enqueue record id now =>
    subst h
    cases htask
    exact ⟨now, rfl⟩
  case loaded.check record =>
    split at h <;> (cases h; cases htask)
  all_goals (subst h; cases htask)

theorem CancelState.next_taskId {committed : Migration} {state state' : CancelState}
    {a : CancelAction} (h : state.next committed a = some state') {taskId : String}
    (htask : state'.taskId? = some taskId) :
    committed.celeryTaskId = some taskId ∨ state.taskId? = some taskId := by
  cases state <;> cases a <;> simp only [next, Option.some.injEq, reduceCtorEq] at h
  case begun.read => subst h; exact Or.inl htask
  case loaded.check record =>
    split at h
    · rename_i passed hcheck
      cases h
      obtain rfl : passed.1 = record := by
        rw [checkCancel] at hcheck
        split at hcheck
        · cases hcheck
          rfl
        · cases hcheck
      exact Or.inr htask
    · cases h
      cases htask
  case checked.revoke => subst h; exact Or.inr htask
  all_goals (subst h; cases htask)

namespace ApplicationSystem

variable {s t : ApplicationSystem}

/-! ## What each step does, guards included -/

def calls (s : ApplicationSystem) : (k : RequestKind) → List (String × k.State)
  | .start => s.starts
  | .cancel => s.cancels

/-- The application with other rows, other tasks and other calls of one kind. -/
def withCalls (s : ApplicationSystem) (migrations : Dict String Migration)
    (tasks : Dict String (String × TaskEntry)) :
    (k : RequestKind) → List (String × k.State) → ApplicationSystem
  | .start => fun starts => { s with migrations, tasks, starts }
  | .cancel => fun cancels => { s with migrations, tasks, cancels }

/-- The tasks after a step of a request for the migration. -/
def tasksAfter (s : ApplicationSystem) (migrationId : String) :
    (k : RequestKind) → k.State → k.Step → Option (Dict String (String × TaskEntry))
  | .start => fun _ a => s.accept migrationId a
  | .cancel => fun state a => some (s.revokeFor state a)

section withCalls

variable {migrations : Dict String Migration} {tasks : Dict String (String × TaskEntry)}

@[simp] theorem withCalls_migrations (k : RequestKind) (calls : List (String × k.State)) :
    (s.withCalls migrations tasks k calls).migrations = migrations := by
  cases k <;> rfl

@[simp] theorem withCalls_tasks (k : RequestKind) (calls : List (String × k.State)) :
    (s.withCalls migrations tasks k calls).tasks = tasks := by
  cases k <;> rfl

@[simp] theorem withCalls_runs (k : RequestKind) (calls : List (String × k.State)) :
    (s.withCalls migrations tasks k calls).runs = s.runs := by
  cases k <;> rfl

/-- What holds of the new calls of one kind and of the old calls holds of all. -/
theorem forall_calls_withCalls {P : (k : RequestKind) → List (String × k.State) → Prop}
    {k : RequestKind} {calls : List (String × k.State)} (h : P k calls)
    (hold : ∀ k', P k' (s.calls k')) (k' : RequestKind) :
    P k' ((s.withCalls migrations tasks k calls).calls k') := by
  cases k <;> cases k' <;> first | exact h | exact hold _

end withCalls

/-- A step of a request: without a row it is refused, and else it may write the row and the tasks. -/
theorem request_cases {k : RequestKind} {i : Nat} {a : k.Step} (h : s.step (k.actionOf i a) = some t) :
    ∃ migrationId state, (s.calls k)[i]? = some (migrationId, state) ∧
      ((s.migrations.get? migrationId = none ∧ ∃ state',
          k.missing migrationId state a = some state' ∧
          t = s.withCalls s.migrations s.tasks k ((s.calls k).set i (migrationId, state'))) ∨
        ∃ committed state' tasks, s.migrations.get? migrationId = some committed ∧
          k.next committed state a = some state' ∧
          s.tasksAfter migrationId k state a = some tasks ∧
          t = s.withCalls (s.migrations.set migrationId (k.row committed state a)) tasks k
            ((s.calls k).set i (migrationId, state'))) := by
  have hstep : s.step (k.actionOf i a) = (s.calls k)[i]?.bind fun e =>
      match s.migrations.get? e.1 with
      | none => (k.missing e.1 e.2 a).bind fun state' =>
          some (s.withCalls s.migrations s.tasks k ((s.calls k).set i (e.1, state')))
      | some committed => (k.next committed e.2 a).bind fun state' =>
          (s.tasksAfter e.1 k e.2 a).bind fun tasks =>
            some (s.withCalls (s.migrations.set e.1 (k.row committed e.2 a)) tasks k
              ((s.calls k).set i (e.1, state'))) := by
    cases k <;> rfl
  rw [hstep] at h
  obtain ⟨⟨migrationId, state⟩, hi, hrest⟩ := Option.bind_eq_some_iff.mp h
  refine ⟨migrationId, state, hi, ?_⟩
  dsimp only at hrest
  cases hrow : s.migrations.get? migrationId with
  | none =>
    rw [hrow] at hrest
    obtain ⟨state', hmissing, ht⟩ := Option.bind_eq_some_iff.mp hrest
    exact Or.inl ⟨rfl, state', hmissing, (Option.some.inj ht).symm⟩
  | some committed =>
    rw [hrow] at hrest
    obtain ⟨state', hnext, hrest⟩ := Option.bind_eq_some_iff.mp hrest
    obtain ⟨tasks, htasks, ht⟩ := Option.bind_eq_some_iff.mp hrest
    exact Or.inr ⟨committed, state', tasks, rfl, hnext, htasks, (Option.some.inj ht).symm⟩

theorem keepsOwners_of_tasksAfter {k : RequestKind} {migrationId : String} {state : k.State}
    {a : k.Step} (h : s.tasksAfter migrationId k state a = some t.tasks) : KeepsOwners s t := by
  cases k with
  | start => exact keepsOwners_of_accept migrationId a h
  | cancel => exact keepsOwners_of_revokeFor state a (Option.some.inj h).symm

/-- A task that a request names is in the row it has read, or was named before, or is enqueued by
this step. -/
theorem owns_of_next {k : RequestKind} {migrationId : String} {committed : Migration}
    {state state' : k.State} {a : k.Step} (hnext : k.next committed state a = some state')
    (htasks : s.tasksAfter migrationId k state a = some t.tasks) {taskId : String}
    (htask : k.taskId? state' = some taskId) :
    committed.celeryTaskId = some taskId ∨ k.taskId? state = some taskId ∨
      t.OwnsTask migrationId taskId := by
  cases k with
  | start =>
    obtain ⟨now, rfl⟩ := StartState.next_taskId hnext htask
    have haccept : s.accept migrationId (.enqueue taskId now) = some t.tasks := htasks
    rcases accept_cases haccept with ⟨_, _, heq, -, hset⟩ | ⟨hnone, -⟩
    · cases heq
      exact Or.inr (Or.inr ⟨{}, by rw [hset, Dict.get?_set, if_pos rfl]⟩)
    · exact absurd rfl (hnone taskId now)
  | cancel =>
    rcases CancelState.next_taskId hnext htask with hread | hloaded
    · exact Or.inl hread
    · exact Or.inr (Or.inl hloaded)

/-- A call that is refused names no task. -/
theorem missing_taskId {k : RequestKind} {migrationId : String} {state state' : k.State} {a : k.Step}
    (h : k.missing migrationId state a = some state') : k.taskId? state' = none := by
  cases k <;> cases state <;> cases a <;> cases h <;> rfl

theorem deliver_cases {taskId : String} (h : s.deliver taskId = some t) :
    ∃ migrationId entry, s.tasks.get? taskId = some (migrationId, entry) ∧ entry.acked = false ∧
      t = { s with runs := s.runs ++ [(migrationId, { taskId })] } := by
  obtain ⟨⟨migrationId, entry⟩, hentry, hrest⟩ := Option.bind_eq_some_iff.mp h
  obtain ⟨hacked, ht⟩ := Option.ite_none_left_eq_some.mp hrest
  exact ⟨migrationId, entry, hentry, by simpa using hacked, (Option.some.inj ht).symm⟩

theorem discard_cases {taskId : String} (h : s.discard taskId = some t) :
    ∃ migrationId entry, s.tasks.get? taskId = some (migrationId, entry) ∧ entry.revoked = true ∧
      t = { s with tasks := s.ack taskId } := by
  obtain ⟨⟨migrationId, entry⟩, hentry, hrest⟩ := Option.bind_eq_some_iff.mp h
  obtain ⟨hrevoked, ht⟩ := Option.ite_none_right_eq_some.mp hrest
  exact ⟨migrationId, entry, hentry, hrevoked, (Option.some.inj ht).symm⟩

theorem terminate_cases {i : Nat} (h : s.terminate i = some t) :
    ∃ migrationId run owner entry, s.runs[i]? = some (migrationId, run) ∧
      s.tasks.get? run.taskId = some (owner, entry) ∧ (entry.revoked && run.state.active) = true ∧
      t = { s with
        runs := s.runs.set i (migrationId, { run with state := .dead })
        tasks := s.ack run.taskId } := by
  obtain ⟨⟨migrationId, run⟩, hi, hrest⟩ := Option.bind_eq_some_iff.mp h
  obtain ⟨⟨owner, entry⟩, hentry, hboth⟩ := Option.bind_eq_some_iff.mp hrest
  obtain ⟨hrevoked, ht⟩ := Option.ite_none_right_eq_some.mp hboth
  exact ⟨migrationId, run, owner, entry, hi, hentry, hrevoked, (Option.some.inj ht).symm⟩

theorem stepRun_cases {i : Nat} {a : RunAction} (h : s.stepRun i a = some t) :
    ∃ migrationId run committed state, s.runs[i]? = some (migrationId, run) ∧
      s.migrations.get? migrationId = some committed ∧ run.state.next committed a = some state ∧
      t = { s with
        migrations := s.migrations.set migrationId (run.state.row committed a)
        runs := s.runs.set i (migrationId, { run with state, wrote := run.wroteAfter a })
        tasks := if Run.acksAfter state a then s.ack run.taskId else s.tasks } := by
  obtain ⟨⟨migrationId, run⟩, hi, hrest⟩ := Option.bind_eq_some_iff.mp h
  obtain ⟨committed, hrow, hmoved⟩ := Option.bind_eq_some_iff.mp hrest
  obtain ⟨state, hnext, ht⟩ := Option.bind_eq_some_iff.mp hmoved
  exact ⟨migrationId, run, committed, state, hi, hrow, hnext, (Option.some.inj ht).symm⟩

theorem create_cases {migrationId : String} {record : Migration}
    (h : s.create migrationId record = some t) :
    migrationId ∉ s.migrations.keys ∧ record.fresh = record ∧
      t = { s with migrations := s.migrations.set migrationId record } := by
  obtain ⟨⟨hnew, hfresh⟩, ht⟩ := Option.ite_none_right_eq_some.mp h
  exact ⟨hnew, hfresh, (Option.some.inj ht).symm⟩

/-- Every task that a row, a request or a run names was enqueued for its migration. -/
structure Owns (s : ApplicationSystem) : Prop where
  rows : ∀ migrationId record taskId, s.migrations.get? migrationId = some record →
    record.celeryTaskId = some taskId → s.OwnsTask migrationId taskId
  requests : ∀ k, ∀ e ∈ s.calls k, ∀ taskId, k.taskId? e.2 = some taskId → s.OwnsTask e.1 taskId
  runs : ∀ e ∈ s.runs, s.OwnsTask e.1 e.2.taskId

/-- The row of a migration is replaced by one that names a task of its own. -/
theorem Owns.rows_set (h : s.Owns) {migrationId : String} {record : Migration}
    (hkeep : KeepsOwners s t) (hset : t.migrations = s.migrations.set migrationId record)
    (hrecord : ∀ taskId, record.celeryTaskId = some taskId → t.OwnsTask migrationId taskId) :
    ∀ id record' taskId, t.migrations.get? id = some record' →
      record'.celeryTaskId = some taskId → t.OwnsTask id taskId := by
  intro id record' taskId hget htask
  rw [hset, Dict.get?_set] at hget
  split at hget
  · rename_i hid
    cases hget
    rw [hid]
    exact hrecord taskId htask
  · exact hkeep _ _ (h.rows id record' taskId hget htask)

/-- The calls after a change of those of one kind. -/
theorem Owns.requests_withCalls (h : s.Owns) {migrations : Dict String Migration}
    {tasks : Dict String (String × TaskEntry)} {k : RequestKind} {calls : List (String × k.State)}
    (hkeep : KeepsOwners s (s.withCalls migrations tasks k calls))
    (hcalls : ∀ e ∈ calls, ∀ taskId, k.taskId? e.2 = some taskId →
      (s.withCalls migrations tasks k calls).OwnsTask e.1 taskId) :
    ∀ k', ∀ e ∈ (s.withCalls migrations tasks k calls).calls k', ∀ taskId,
      k'.taskId? e.2 = some taskId → (s.withCalls migrations tasks k calls).OwnsTask e.1 taskId :=
  forall_calls_withCalls (P := fun k' calls' => ∀ e ∈ calls', ∀ taskId,
    k'.taskId? e.2 = some taskId → (s.withCalls migrations tasks k calls).OwnsTask e.1 taskId) hcalls
    fun k' e he taskId htask => hkeep _ _ (h.requests k' e he taskId htask)

/-- Where the rows and the tasks stay, a new call has only to name no task. -/
theorem Owns.withCalls (h : s.Owns) {k : RequestKind} {calls : List (String × k.State)}
    (hcalls : ∀ e ∈ calls, e ∈ s.calls k ∨ k.taskId? e.2 = none) :
    (s.withCalls s.migrations s.tasks k calls).Owns := by
  have hkeep : KeepsOwners s (s.withCalls s.migrations s.tasks k calls) :=
    keepsOwners_of_tasks (withCalls_tasks k calls)
  refine ⟨?_, h.requests_withCalls hkeep ?_, ?_⟩
  · rw [withCalls_migrations]
    exact fun id record taskId hrow htask => hkeep _ _ (h.rows id record taskId hrow htask)
  · intro e he taskId htask
    rcases hcalls e he with hold | hnone
    · exact hkeep _ _ (h.requests k e hold taskId htask)
    · rw [hnone] at htask
      cases htask
  · rw [withCalls_runs]
    exact fun e he => hkeep _ _ (h.runs e he)

theorem Owns.arrival (h : s.Owns) (k : RequestKind) (migrationId : String) :
    (s.withCalls s.migrations s.tasks k (s.calls k ++ [(migrationId, k.begun)])).Owns := by
  apply h.withCalls
  intro e he
  rcases List.mem_append.mp he with hold | hnew
  · exact Or.inl hold
  · rw [List.mem_singleton.mp hnew]
    exact Or.inr (by cases k <;> rfl)

theorem Owns.request (h : s.Owns) {k : RequestKind} {i : Nat} {a : k.Step}
    (hstep : s.step (k.actionOf i a) = some t) : t.Owns := by
  obtain ⟨migrationId, state, hi, hcase⟩ := request_cases hstep
  have hmem : (migrationId, state) ∈ s.calls k := List.mem_of_getElem? hi
  rcases hcase with ⟨-, state', hmissing, rfl⟩ |
    ⟨committed, state', tasks, hrow, hnext, htasks, rfl⟩
  · apply h.withCalls
    intro e he
    rcases List.mem_or_eq_of_mem_set he with hold | rfl
    · exact Or.inl hold
    · exact Or.inr (missing_taskId hmissing)
  · have hset : s.tasksAfter migrationId k state a =
        some (s.withCalls (s.migrations.set migrationId (k.row committed state a)) tasks k
          ((s.calls k).set i (migrationId, state'))).tasks := by
      rw [withCalls_tasks]
      exact htasks
    have hkeep := keepsOwners_of_tasksAfter hset
    refine ⟨h.rows_set hkeep (withCalls_migrations k _) ?_, h.requests_withCalls hkeep ?_, ?_⟩
    · intro taskId htask
      rcases k.row_taskId committed state a with hsame | hown
      · exact hkeep _ _ (h.rows migrationId committed taskId hrow (hsame ▸ htask))
      · exact hkeep _ _ (h.requests k _ hmem taskId (hown ▸ htask))
    · intro e he taskId htask
      rcases List.mem_or_eq_of_mem_set he with hold | rfl
      · exact hkeep _ _ (h.requests k e hold taskId htask)
      · rcases owns_of_next hnext hset htask with hread | hloaded | henqueued
        · exact hkeep _ _ (h.rows migrationId committed taskId hrow hread)
        · exact hkeep _ _ (h.requests k _ hmem taskId hloaded)
        · exact henqueued
    · rw [withCalls_runs]
      exact fun e he => hkeep _ _ (h.runs e he)

theorem Owns.stepRun (h : s.Owns) {i : Nat} {a : RunAction} (hstep : s.stepRun i a = some t) :
    t.Owns := by
  obtain ⟨migrationId, run, committed, state, hi, hrow, -, ht⟩ := stepRun_cases hstep
  have hmem : (migrationId, run) ∈ s.runs := List.mem_of_getElem? hi
  have hkeep : KeepsOwners s t := by
    by_cases hacks : Run.acksAfter state a = true
    · exact keepsOwners_of_ack run.taskId (by rw [ht]; exact if_pos hacks)
    · exact keepsOwners_of_tasks (by rw [ht]; exact if_neg hacks)
  constructor
  · refine h.rows_set hkeep (by rw [ht]) ?_
    intro taskId htask
    rw [RunState.row_taskId] at htask
    exact hkeep _ _ (h.rows migrationId committed taskId hrow htask)
  · intro k e he taskId htask
    rw [ht] at he
    exact hkeep _ _ (h.requests k e he taskId htask)
  · intro e he
    rw [ht] at he
    rcases List.mem_or_eq_of_mem_set he with hold | rfl
    · exact hkeep _ _ (h.runs e hold)
    · exact hkeep _ _ (h.runs (migrationId, run) hmem)

theorem Owns.step (h : s.Owns) {a : ApplicationAction} (hstep : s.step a = some t) : t.Owns := by
  cases a with
  | create migrationId record =>
    obtain ⟨hnew, hfresh, rfl⟩ := create_cases hstep
    refine ⟨h.rows_set (keepsOwners_of_tasks rfl) rfl ?_, h.requests, h.runs⟩
    intro taskId htask
    rw [← hfresh] at htask
    cases htask
  | beginStart migrationId =>
    obtain rfl := Option.some.inj hstep
    exact h.arrival .start migrationId
  | start i a => exact h.request (k := .start) hstep
  | beginCancel migrationId =>
    obtain rfl := Option.some.inj hstep
    exact h.arrival .cancel migrationId
  | cancel i a => exact h.request (k := .cancel) hstep
  | deliver taskId =>
    obtain ⟨migrationId, entry, hentry, -, rfl⟩ := deliver_cases hstep
    refine ⟨h.rows, h.requests, ?_⟩
    intro e he
    rcases List.mem_append.mp he with hold | hnew
    · exact h.runs e hold
    · rw [List.mem_singleton.mp hnew]
      exact ⟨entry, hentry⟩
  | discard taskId =>
    obtain ⟨-, -, -, -, ht⟩ := discard_cases hstep
    have hkeep : KeepsOwners s t := keepsOwners_of_ack taskId (by rw [ht])
    subst ht
    exact ⟨fun id r k hr hk => hkeep _ _ (h.rows id r k hr hk),
      fun k e he id hid => hkeep _ _ (h.requests k e he id hid), fun e he => hkeep _ _ (h.runs e he)⟩
  | terminate i =>
    obtain ⟨migrationId, run, -, -, hi, -, -, ht⟩ := terminate_cases hstep
    have hmem : (migrationId, run) ∈ s.runs := List.mem_of_getElem? hi
    have hkeep : KeepsOwners s t := keepsOwners_of_ack run.taskId (by rw [ht])
    subst ht
    refine ⟨fun id r k hr hk => hkeep _ _ (h.rows id r k hr hk),
      fun k e he id hid => hkeep _ _ (h.requests k e he id hid), fun e he => ?_⟩
    rcases List.mem_or_eq_of_mem_set he with hold | rfl
    · exact hkeep _ _ (h.runs e hold)
    · exact hkeep _ _ (h.runs (migrationId, run) hmem)
  | run i a => exact h.stepRun hstep

/-! ## Each migration goes its own way -/

theorem project_eq {migrationId : String} {record : Migration}
    (h : s.migrations.get? migrationId = some record) : s.project migrationId = some
      { record
        starts := Owned.of migrationId s.starts
        cancels := Owned.of migrationId s.cancels
        tasks := Owned.dict migrationId s.tasks
        runs := Owned.of migrationId s.runs } := by
  rw [project, h, Option.map_some]

theorem project_of {migrationId : String} {m : MigrationSystem}
    (hrow : s.migrations.get? migrationId = some m.record)
    (hstarts : Owned.of migrationId s.starts = m.starts)
    (hcancels : Owned.of migrationId s.cancels = m.cancels)
    (htasks : Owned.dict migrationId s.tasks = m.tasks)
    (hruns : Owned.of migrationId s.runs = m.runs) : s.project migrationId = some m := by
  rw [project, hrow, Option.map_some, hstarts, hcancels, htasks, hruns]

theorem dict_ack (migrationId taskId : String) :
    Owned.dict migrationId (s.ack taskId) = Broker.ack (Owned.dict migrationId s.tasks) taskId :=
  Owned.dict_mapValues migrationId
    (fun id (entry : TaskEntry) => if id = taskId then { entry with acked := true } else entry) s.tasks

theorem dict_revoke (migrationId taskId : String) : Owned.dict migrationId (s.revoke taskId) =
    Broker.revoke (Owned.dict migrationId s.tasks) taskId :=
  Owned.dict_mapValues migrationId
    (fun id (entry : TaskEntry) => if id = taskId then { entry with revoked := true } else entry) s.tasks

/-- A task of another migration is none of this one's. -/
theorem get?_dict_none {owner migrationId taskId : String} (h : s.OwnsTask owner taskId)
    (hne : owner ≠ migrationId) : (Owned.dict migrationId s.tasks).get? taskId = none := by
  obtain ⟨entry, hget⟩ := h
  cases hown : (Owned.dict migrationId s.tasks).get? taskId with
  | none => rfl
  | some other =>
    rw [Owned.get?_dict, hget] at hown
    cases hown
    exact absurd rfl hne

theorem ack_absent {tasks : Broker} {taskId : String} (h : tasks.get? taskId = none) :
    tasks.ack taskId = tasks := by
  apply Dict.mapValues_eq_self
  intro id entry hget
  rw [if_neg]
  rintro rfl
  rw [h] at hget
  cases hget

theorem revoke_absent {tasks : Broker} {taskId : String} (h : tasks.get? taskId = none) :
    tasks.revoke taskId = tasks := by
  apply Dict.mapValues_eq_self
  intro id entry hget
  rw [if_neg]
  rintro rfl
  rw [h] at hget
  cases hget

/-- The tasks of one migration after an enqueue. -/
theorem dict_accept {owner : String} {a : StartAction} {tasks : Dict String (String × TaskEntry)}
    (h : s.accept owner a = some tasks) (migrationId : String) :
    (owner = migrationId → Broker.accept (Owned.dict migrationId s.tasks) a =
      some (Owned.dict migrationId tasks)) ∧
    (owner ≠ migrationId → Owned.dict migrationId tasks = Owned.dict migrationId s.tasks) := by
  rcases accept_cases h with ⟨taskId, now, rfl, hfresh, rfl⟩ | ⟨hother, rfl⟩
  · constructor
    · rintro rfl
      have hnew : taskId ∉ (Owned.dict owner s.tasks).keys := by
        intro hin
        obtain ⟨entry, hget⟩ := (Dict.mem_keys_iff_exists _ _).mp hin
        exact hfresh (Dict.mem_keys_of_get? ((Owned.get?_dict _ _ _ _).mp hget))
      rw [Broker.accept, if_neg hnew, Owned.dict_set_new hfresh]
    · intro hne
      exact Owned.dict_set_ne hfresh hne _
  · refine ⟨fun _ => ?_, fun _ => rfl⟩
    cases a with
    | enqueue taskId now => exact absurd rfl (hother taskId now)
    | _ => rfl

theorem dict_revokeFor (migrationId : String) (state : CancelState) (a : CancelAction) :
    Owned.dict migrationId (s.revokeFor state a) =
      Broker.revokeFor (Owned.dict migrationId s.tasks) state a := by
  cases state with
  | checked loaded =>
    cases a with
    | revoke now =>
      simp only [revokeFor, Broker.revokeFor]
      cases loaded.1.celeryTaskId with
      | none => rfl
      | some taskId =>
        by_cases hempty : taskId = ""
        · simp only [if_pos hempty]
        · simp only [if_neg hempty]
          exact dict_revoke migrationId taskId
    | _ => rfl
  | _ => rfl

/-- The tasks of one migration after a step of a request, whose task, if any, is its own. -/
theorem dict_tasksAfter {k : RequestKind} {owner : String} {state : k.State} {a : k.Step}
    {tasks : Dict String (String × TaskEntry)} (h : s.tasksAfter owner k state a = some tasks)
    (howns : ∀ taskId, k.taskId? state = some taskId → s.OwnsTask owner taskId)
    (migrationId : String) :
    (owner = migrationId → k.tasksAfter (Owned.dict migrationId s.tasks) state a =
      some (Owned.dict migrationId tasks)) ∧
    (owner ≠ migrationId → Owned.dict migrationId tasks = Owned.dict migrationId s.tasks) := by
  cases k with
  | start => exact dict_accept h migrationId
  | cancel =>
    obtain rfl := Option.some.inj h
    refine ⟨fun _ => congrArg some (dict_revokeFor migrationId state a).symm, ?_⟩
    intro hne
    rcases s.revokeFor_cases state a with hsame | ⟨loaded, now, taskId, rfl, -, htask, -, hrevoke⟩
    · exact congrArg _ hsame
    · rw [hrevoke, dict_revoke, revoke_absent (get?_dict_none (howns taskId htask) hne)]

/-- The migration that an action is for. -/
def owner (s : ApplicationSystem) : ApplicationAction → Option String
  | .create migrationId _ => some migrationId
  | .beginStart migrationId => some migrationId
  | .start i _ => s.starts[i]?.map Prod.fst
  | .beginCancel migrationId => some migrationId
  | .cancel i _ => s.cancels[i]?.map Prod.fst
  | .deliver taskId => (s.tasks.get? taskId).map Prod.fst
  | .discard taskId => (s.tasks.get? taskId).map Prod.fst
  | .terminate i => s.runs[i]?.map Prod.fst
  | .run i _ => s.runs[i]?.map Prod.fst

theorem owner_actionOf (k : RequestKind) (i : Nat) (a : k.Step) :
    s.owner (k.actionOf i a) = (s.calls k)[i]?.map Prod.fst := by
  cases k <;> rfl

/-- All that the application has of the migration is as before. -/
structure Untouched (migrationId : String) (s t : ApplicationSystem) : Prop where
  row : t.migrations.get? migrationId = s.migrations.get? migrationId := by rfl
  requests : ∀ k, Owned.of migrationId (t.calls k) = Owned.of migrationId (s.calls k) := by
    exact fun _ => rfl
  tasks : Owned.dict migrationId t.tasks = Owned.dict migrationId s.tasks := by rfl
  runs : Owned.of migrationId t.runs = Owned.of migrationId s.runs := by rfl

theorem Untouched.project {migrationId : String} (h : Untouched migrationId s t) :
    t.project migrationId = s.project migrationId := by
  have hstarts : Owned.of migrationId t.starts = Owned.of migrationId s.starts := h.requests .start
  have hcancels : Owned.of migrationId t.cancels = Owned.of migrationId s.cancels :=
    h.requests .cancel
  rw [ApplicationSystem.project, ApplicationSystem.project, h.row, hstarts, hcancels, h.tasks,
    h.runs]

variable {migrationId : String}

theorem untouched_withCalls {migrations : Dict String Migration}
    {tasks : Dict String (String × TaskEntry)} {k : RequestKind} {calls : List (String × k.State)}
    (hrow : migrations.get? migrationId = s.migrations.get? migrationId)
    (htasks : Owned.dict migrationId tasks = Owned.dict migrationId s.tasks)
    (hcalls : Owned.of migrationId calls = Owned.of migrationId (s.calls k)) :
    Untouched migrationId s (s.withCalls migrations tasks k calls) where
  row := by rw [withCalls_migrations, hrow]
  requests := forall_calls_withCalls
    (P := fun k' calls' => Owned.of migrationId calls' = Owned.of migrationId (s.calls k'))
    hcalls fun _ => rfl
  tasks := by rw [withCalls_tasks, htasks]
  runs := by rw [withCalls_runs]

theorem Owns.untouched_request (hown : s.Owns) {k : RequestKind} {i : Nat} {a : k.Step}
    (hstep : s.step (k.actionOf i a) = some t)
    (hother : s.owner (k.actionOf i a) ≠ some migrationId) : Untouched migrationId s t := by
  obtain ⟨id, state, hi, hcase⟩ := request_cases hstep
  have hid : id ≠ migrationId := by
    intro heq
    rw [owner_actionOf, hi, Option.map_some, heq] at hother
    exact hother rfl
  rcases hcase with ⟨-, state', -, rfl⟩ | ⟨committed, state', tasks, -, -, htasks, rfl⟩
  · exact untouched_withCalls rfl rfl (Owned.of_set_ne hi hid _)
  · have howns := hown.requests k _ (List.mem_of_getElem? hi)
    refine untouched_withCalls ?_ ((dict_tasksAfter htasks howns migrationId).2 hid)
      (Owned.of_set_ne hi hid _)
    rw [Dict.get?_set, if_neg (Ne.symm hid)]

/-- An action for one migration does nothing to another. -/
theorem Owns.untouched (hown : s.Owns) {a : ApplicationAction} (hstep : s.step a = some t)
    (hother : s.owner a ≠ some migrationId) : Untouched migrationId s t := by
  have hne : ∀ {id : String}, s.owner a = some id → id ≠ migrationId := fun hid heq =>
    hother (heq ▸ hid)
  cases a with
  | create id record =>
    obtain ⟨-, -, rfl⟩ := create_cases hstep
    exact { row := by rw [Dict.get?_set, if_neg (Ne.symm (hne rfl))] }
  | beginStart id =>
    obtain rfl := Option.some.inj hstep
    exact untouched_withCalls (k := .start) rfl rfl (Owned.of_append_ne (hne rfl) _ _)
  | start i a => exact hown.untouched_request (k := .start) hstep hother
  | beginCancel id =>
    obtain rfl := Option.some.inj hstep
    exact untouched_withCalls (k := .cancel) rfl rfl (Owned.of_append_ne (hne rfl) _ _)
  | cancel i a => exact hown.untouched_request (k := .cancel) hstep hother
  | deliver taskId =>
    obtain ⟨id, entry, hentry, -, rfl⟩ := deliver_cases hstep
    have hid : id ≠ migrationId := hne (by rw [owner, hentry, Option.map_some])
    exact { runs := Owned.of_append_ne hid _ _ }
  | discard taskId =>
    obtain ⟨id, entry, hentry, -, rfl⟩ := discard_cases hstep
    have hid : id ≠ migrationId := hne (by rw [owner, hentry, Option.map_some])
    exact { tasks := by rw [dict_ack, ack_absent (get?_dict_none ⟨entry, hentry⟩ hid)] }
  | terminate i =>
    obtain ⟨id, run, -, -, hi, -, -, rfl⟩ := terminate_cases hstep
    have hid : id ≠ migrationId := hne (by rw [owner, hi, Option.map_some])
    have howns := hown.runs _ (List.mem_of_getElem? hi)
    exact {
      tasks := by rw [dict_ack, ack_absent (get?_dict_none howns hid)]
      runs := Owned.of_set_ne hi hid _ }
  | run i a =>
    obtain ⟨id, run, committed, state, hi, -, -, rfl⟩ := stepRun_cases hstep
    have hid : id ≠ migrationId := hne (by rw [owner, hi, Option.map_some])
    have howns := hown.runs _ (List.mem_of_getElem? hi)
    exact {
      row := by rw [Dict.get?_set, if_neg (Ne.symm hid)]
      tasks := by
        rw [apply_ite (Owned.dict migrationId), dict_ack, ack_absent (get?_dict_none howns hid),
          ite_self]
      runs := Owned.of_set_ne hi hid _ }

/-! ## What the action does to its own migration -/

variable {m : MigrationSystem}

theorem calls_project (hp : s.project migrationId = some m) (k : RequestKind) :
    m.calls k = Owned.of migrationId (s.calls k) := by
  obtain ⟨record, -, rfl⟩ := Option.map_eq_some_iff.mp hp
  cases k <;> rfl

theorem project_withCalls (hp : s.project migrationId = some m) {record : Migration}
    {migrations : Dict String Migration} (hrow : migrations.get? migrationId = some record)
    (tasks : Dict String (String × TaskEntry)) (k : RequestKind) (calls : List (String × k.State)) :
    (s.withCalls migrations tasks k calls).project migrationId =
      some (m.withCalls record (Owned.dict migrationId tasks) k (Owned.of migrationId calls)) := by
  obtain ⟨old, -, rfl⟩ := Option.map_eq_some_iff.mp hp
  cases k <;> exact project_of hrow rfl rfl rfl rfl

theorem own_arrival (k : RequestKind) (hp : s.project migrationId = some m) :
    (s.withCalls s.migrations s.tasks k (s.calls k ++ [(migrationId, k.begun)])).project
      migrationId = some (m.withCalls m.record m.tasks k (m.calls k ++ [k.begun])) := by
  obtain ⟨record, hrow, hm⟩ := Option.map_eq_some_iff.mp hp
  rw [project_withCalls hp hrow, Owned.of_append_self, calls_project hp, ← hm]

theorem Owns.own_request (hown : s.Owns) {k : RequestKind} {i : Nat} {a : k.Step}
    (hstep : s.step (k.actionOf i a) = some t)
    (howner : s.owner (k.actionOf i a) = some migrationId) (hp : s.project migrationId = some m) :
    ∃ b m', m.step b = some m' ∧ t.project migrationId = some m' := by
  obtain ⟨id, state, hi, hcase⟩ := request_cases hstep
  obtain rfl : id = migrationId := by
    rw [owner_actionOf, hi] at howner
    exact Option.some.inj howner
  obtain ⟨record, hrow, hm⟩ := Option.map_eq_some_iff.mp hp
  rcases hcase with ⟨hnone, -⟩ | ⟨committed, state', tasks, hcommitted, hnext, htasks, rfl⟩
  · rw [hrow] at hnone
    cases hnone
  · obtain rfl : record = committed := by
      rw [hrow] at hcommitted
      exact Option.some.inj hcommitted
    have hrecord : m.record = record := by rw [← hm]
    have hbroker : m.tasks = Owned.dict id s.tasks := by rw [← hm]
    have hplace : (m.calls k)[Owned.place id (s.calls k) i]? = some state := by
      rw [calls_project hp]
      exact Owned.getElem?_of hi
    have howns := hown.requests k _ (List.mem_of_getElem? hi)
    refine ⟨k.action (Owned.place id (s.calls k) i) a, _, (MigrationSystem.step_action_iff k).mpr
      ⟨state, state', Owned.dict id tasks, hplace, by rw [hrecord]; exact hnext, ?_, rfl⟩, ?_⟩
    · rw [hbroker]
      exact (dict_tasksAfter htasks howns id).1 rfl
    · have hset : (s.migrations.set id (k.row record state a)).get? id =
          some (k.row record state a) := by
        rw [Dict.get?_set, if_pos rfl]
      rw [project_withCalls hp hset, Owned.of_set_self hi, calls_project hp, hrecord]

theorem own_run {i : Nat} {a : RunAction} (hstep : s.stepRun i a = some t)
    (howner : s.owner (.run i a) = some migrationId) (hp : s.project migrationId = some m) :
    ∃ b m', m.step b = some m' ∧ t.project migrationId = some m' := by
  obtain ⟨record, hrow, rfl⟩ := Option.map_eq_some_iff.mp hp
  obtain ⟨id, run, committed, state, hi, hcommitted, hnext, rfl⟩ := stepRun_cases hstep
  obtain rfl : id = migrationId := by simpa [owner, hi] using howner
  obtain rfl : record = committed := by
    rw [hrow] at hcommitted
    exact Option.some.inj hcommitted
  refine ⟨.run (Owned.place id s.runs i) a, _, MigrationSystem.stepRun_iff.mpr
    ⟨run, state, Owned.getElem?_of hi, hnext, rfl⟩, ?_⟩
  have htasks : Owned.dict id (if Run.acksAfter state a then s.ack run.taskId else s.tasks) =
      if Run.acksAfter state a then Broker.ack (Owned.dict id s.tasks) run.taskId
      else Owned.dict id s.tasks := by
    rw [apply_ite (Owned.dict id), dict_ack]
  exact project_of (by rw [Dict.get?_set, if_pos rfl]) rfl rfl htasks (Owned.of_set_self hi _)

theorem terminated {i : Nat} {run : Run} {entry : TaskEntry} (hi : m.runs[i]? = some run)
    (hentry : m.tasks.get? run.taskId = some entry)
    (hboth : (entry.revoked && run.state.active) = true) :
    m.terminate i = some { m with
      runs := m.runs.set i { run with state := .dead }
      tasks := m.tasks.ack run.taskId } := by
  simpa [MigrationSystem.terminate, MigrationSystem.taskEntry, hi, hentry] using hboth

/-- Terminating a run finds the task of the run's own migration. -/
theorem own_terminate (hown : s.Owns) {i : Nat} (hstep : s.terminate i = some t)
    (howner : s.owner (.terminate i) = some migrationId) (hp : s.project migrationId = some m) :
    ∃ b m', m.step b = some m' ∧ t.project migrationId = some m' := by
  obtain ⟨record, hrow, rfl⟩ := Option.map_eq_some_iff.mp hp
  obtain ⟨id, run, other, entry, hi, hentry, hboth, rfl⟩ := terminate_cases hstep
  obtain rfl : id = migrationId := by simpa [owner, hi] using howner
  obtain ⟨entry', hentry'⟩ := hown.runs _ (List.mem_of_getElem? hi)
  have hsame : entry' = entry := by
    rw [hentry] at hentry'
    cases hentry'
    rfl
  subst hsame
  exact ⟨.terminate (Owned.place id s.runs i), _,
    terminated (Owned.getElem?_of hi) ((Owned.get?_dict _ _ _ _).mpr hentry') hboth,
    project_of hrow rfl rfl (dict_ack id run.taskId) (Owned.of_set_self hi _)⟩

/-- An action for a migration that exists is an action of that migration alone. -/
theorem Owns.own_step (hown : s.Owns) {a : ApplicationAction} (hstep : s.step a = some t)
    (howner : s.owner a = some migrationId) (hp : s.project migrationId = some m) :
    ∃ b m', m.step b = some m' ∧ t.project migrationId = some m' := by
  obtain ⟨record, hrow, hm⟩ := Option.map_eq_some_iff.mp hp
  cases a with
  | create id created =>
    obtain rfl : id = migrationId := Option.some.inj howner
    exact absurd (Dict.mem_keys_of_get? hrow) (create_cases hstep).1
  | beginStart id =>
    obtain rfl : id = migrationId := Option.some.inj howner
    obtain rfl := Option.some.inj hstep
    exact ⟨.beginStart, _, MigrationSystem.step_arrival .start, own_arrival .start hp⟩
  | start i a => exact hown.own_request (k := .start) hstep howner hp
  | beginCancel id =>
    obtain rfl : id = migrationId := Option.some.inj howner
    obtain rfl := Option.some.inj hstep
    exact ⟨.beginCancel, _, MigrationSystem.step_arrival .cancel, own_arrival .cancel hp⟩
  | cancel i a => exact hown.own_request (k := .cancel) hstep howner hp
  | deliver taskId =>
    obtain ⟨id, entry, hentry, hacked, rfl⟩ := deliver_cases hstep
    obtain rfl : id = migrationId := by simpa [owner, hentry] using howner
    subst hm
    exact ⟨.deliver taskId, _, MigrationSystem.deliver_iff.mpr
      ⟨entry, (Owned.get?_dict _ _ _ _).mpr hentry, hacked, rfl⟩,
      project_of hrow rfl rfl rfl (Owned.of_append_self _ _ _)⟩
  | discard taskId =>
    obtain ⟨id, entry, hentry, hrevoked, rfl⟩ := discard_cases hstep
    obtain rfl : id = migrationId := by simpa [owner, hentry] using howner
    subst hm
    exact ⟨.discard taskId, _, MigrationSystem.discard_iff.mpr
      ⟨entry, (Owned.get?_dict _ _ _ _).mpr hentry, hrevoked, rfl⟩,
      project_of hrow rfl rfl (dict_ack id taskId) rfl⟩
  | terminate i => exact own_terminate hown hstep howner hp
  | run i a => exact own_run hstep howner hp

/-! ## Before its row exists -/

/-- Requests for the id have only begun or been refused, and it has no task and no run. -/
structure Waiting (s : ApplicationSystem) (migrationId : String) : Prop where
  requests : ∀ k, ∀ state ∈ Owned.of migrationId (s.calls k),
    state = k.begun ∨ ∃ exc, state = k.raised exc
  tasks : Owned.dict migrationId s.tasks = Dict.empty
  runs : Owned.of migrationId s.runs = []

theorem missing_raised {k : RequestKind} {state state' : k.State} {a : k.Step}
    (h : k.missing migrationId state a = some state') : ∃ exc, state' = k.raised exc := by
  cases k <;> cases state <;> cases a <;> cases h <;> exact ⟨_, rfl⟩

theorem Waiting.no_task (h : Waiting s migrationId) {taskId : String} {entry : TaskEntry} :
    s.tasks.get? taskId ≠ some (migrationId, entry) := by
  intro hentry
  have hown := (Owned.get?_dict migrationId s.tasks taskId entry).mpr hentry
  rw [h.tasks, Dict.get?_empty] at hown
  cases hown

theorem Waiting.no_run (h : Waiting s migrationId) {i : Nat} {run : Run} :
    s.runs[i]? ≠ some (migrationId, run) := by
  intro hi
  have hmem := Owned.mem_of.mpr (List.mem_of_getElem? hi)
  rw [h.runs] at hmem
  cases hmem

/-- Another call of the id has only begun or been refused. -/
theorem Waiting.withCalls (h : Waiting s migrationId) {k : RequestKind}
    {calls : List (String × k.State)} (hcalls : ∀ state ∈ Owned.of migrationId calls,
      state ∈ Owned.of migrationId (s.calls k) ∨ state = k.begun ∨ ∃ exc, state = k.raised exc) :
    Waiting (s.withCalls s.migrations s.tasks k calls) migrationId where
  requests := by
    refine forall_calls_withCalls (P := fun k' calls' => ∀ state ∈ Owned.of migrationId calls',
      state = k'.begun ∨ ∃ exc, state = k'.raised exc) ?_ h.requests
    intro state hmem
    rcases hcalls state hmem with hold | hnew
    · exact h.requests k state hold
    · exact hnew
  tasks := by rw [withCalls_tasks, h.tasks]
  runs := by rw [withCalls_runs, h.runs]

theorem Waiting.arrival (h : Waiting s migrationId) (k : RequestKind) :
    Waiting (s.withCalls s.migrations s.tasks k (s.calls k ++ [(migrationId, k.begun)]))
      migrationId := by
  apply h.withCalls
  intro state hmem
  rw [Owned.of_append_self] at hmem
  rcases List.mem_append.mp hmem with hold | hnew
  · exact Or.inl hold
  · exact Or.inr (Or.inl (List.mem_singleton.mp hnew))

theorem Waiting.request (h : Waiting s migrationId) (hnone : s.migrations.get? migrationId = none)
    {k : RequestKind} {i : Nat} {a : k.Step} (hstep : s.step (k.actionOf i a) = some t)
    (howner : s.owner (k.actionOf i a) = some migrationId) : Waiting t migrationId := by
  obtain ⟨id, state, hi, hcase⟩ := request_cases hstep
  obtain rfl : id = migrationId := by
    rw [owner_actionOf, hi] at howner
    exact Option.some.inj howner
  rcases hcase with ⟨-, state', hmissing, rfl⟩ | ⟨_, _, _, hrow, -⟩
  · apply h.withCalls
    intro other hmem
    rw [Owned.of_set_self hi] at hmem
    rcases List.mem_or_eq_of_mem_set hmem with hold | rfl
    · exact Or.inl hold
    · exact Or.inr (Or.inr (missing_raised hmissing))
  · rw [hnone] at hrow
    cases hrow

theorem Waiting.step (h : Waiting s migrationId) (hown : s.Owns)
    (hnone : s.migrations.get? migrationId = none) {a : ApplicationAction}
    (hstep : s.step a = some t) : Waiting t migrationId := by
  by_cases howner : s.owner a = some migrationId
  · cases a with
    | create id record =>
      obtain ⟨-, -, rfl⟩ := create_cases hstep
      exact ⟨h.requests, h.tasks, h.runs⟩
    | beginStart id =>
      obtain rfl : id = migrationId := Option.some.inj howner
      obtain rfl := Option.some.inj hstep
      exact h.arrival .start
    | start i a => exact h.request hnone (k := .start) hstep howner
    | beginCancel id =>
      obtain rfl : id = migrationId := Option.some.inj howner
      obtain rfl := Option.some.inj hstep
      exact h.arrival .cancel
    | cancel i a => exact h.request hnone (k := .cancel) hstep howner
    | deliver taskId =>
      obtain ⟨id, entry, hentry, -, -⟩ := deliver_cases hstep
      obtain rfl : id = migrationId := by simpa [owner, hentry] using howner
      exact absurd hentry h.no_task
    | discard taskId =>
      obtain ⟨id, entry, hentry, -, -⟩ := discard_cases hstep
      obtain rfl : id = migrationId := by simpa [owner, hentry] using howner
      exact absurd hentry h.no_task
    | terminate i =>
      obtain ⟨id, run, -, -, hi, -⟩ := terminate_cases hstep
      obtain rfl : id = migrationId := by simpa [owner, hi] using howner
      exact absurd hi h.no_run
    | run i a =>
      obtain ⟨id, run, -, -, hi, -⟩ := stepRun_cases hstep
      obtain rfl : id = migrationId := by simpa [owner, hi] using howner
      exact absurd hi h.no_run
  · have hsame := hown.untouched hstep howner
    exact ⟨fun k => hsame.requests k ▸ h.requests k, hsame.tasks.trans h.tasks,
      hsame.runs.trans h.runs⟩

theorem request_row_cases {k : RequestKind} {i : Nat} {a : k.Step}
    (hstep : s.step (k.actionOf i a) = some t) :
    t.migrations = s.migrations ∨ ∃ id record, t.migrations = s.migrations.set id record ∧
      (s.migrations.get? id).isSome = true := by
  obtain ⟨id, state, -, hcase⟩ := request_cases hstep
  rcases hcase with ⟨-, _, -, rfl⟩ | ⟨committed, _, _, hrow, -, -, rfl⟩
  · exact Or.inl (withCalls_migrations k _)
  · exact Or.inr ⟨id, _, withCalls_migrations k _, by rw [hrow, Option.isSome_some]⟩

/-- A step writes no row, or that of a migration that exists, or it creates one. -/
theorem row_cases {a : ApplicationAction} (hstep : s.step a = some t) :
    t.migrations = s.migrations ∨ ∃ id record, t.migrations = s.migrations.set id record ∧
      ((s.migrations.get? id).isSome = true ∨ record.fresh = record) := by
  cases a with
  | create id record =>
    obtain ⟨-, hfresh, rfl⟩ := create_cases hstep
    exact Or.inr ⟨id, record, rfl, Or.inr hfresh⟩
  | beginStart id =>
    obtain rfl := Option.some.inj hstep
    exact Or.inl rfl
  | start i a =>
    rcases request_row_cases (k := .start) hstep with hsame | ⟨id, record, hset, hrow⟩
    · exact Or.inl hsame
    · exact Or.inr ⟨id, record, hset, Or.inl hrow⟩
  | beginCancel id =>
    obtain rfl := Option.some.inj hstep
    exact Or.inl rfl
  | cancel i a =>
    rcases request_row_cases (k := .cancel) hstep with hsame | ⟨id, record, hset, hrow⟩
    · exact Or.inl hsame
    · exact Or.inr ⟨id, record, hset, Or.inl hrow⟩
  | deliver taskId =>
    obtain ⟨_, _, -, -, rfl⟩ := deliver_cases hstep
    exact Or.inl rfl
  | discard taskId =>
    obtain ⟨_, _, -, -, rfl⟩ := discard_cases hstep
    exact Or.inl rfl
  | terminate i =>
    obtain ⟨_, _, _, _, -, -, -, rfl⟩ := terminate_cases hstep
    exact Or.inl rfl
  | run i a =>
    obtain ⟨id, _, _, _, -, hrow, -, rfl⟩ := stepRun_cases hstep
    exact Or.inr ⟨id, _, rfl, Or.inl (by rw [hrow, Option.isSome_some])⟩

/-- No row is ever deleted. -/
theorem row_kept {a : ApplicationAction} (hstep : s.step a = some t)
    (hnone : t.migrations.get? migrationId = none) : s.migrations.get? migrationId = none := by
  rcases row_cases hstep with hsame | ⟨id, record, hset, -⟩
  · rw [← hsame]
    exact hnone
  · rw [hset, Dict.get?_set] at hnone
    split at hnone
    · cases hnone
    · exact hnone

/-- A row that appears is a fresh record. -/
theorem row_created {a : ApplicationAction} (hstep : s.step a = some t)
    (hnone : s.migrations.get? migrationId = none) {record : Migration}
    (hrow : t.migrations.get? migrationId = some record) : record.fresh = record := by
  rcases row_cases hstep with hsame | ⟨id, written, hset, hcase⟩
  · rw [hsame, hnone] at hrow
    cases hrow
  · rw [hset, Dict.get?_set] at hrow
    split at hrow
    · rename_i hid
      cases hrow
      rcases hcase with hexists | hfresh
      · rw [← hid, hnone] at hexists
        cases hexists
      · exact hfresh
    · rw [hnone] at hrow
      cases hrow

/-- Every migration stands where it would stand if it were the only one. -/
structure Independent (s : ApplicationSystem) : Prop where
  owns : s.Owns
  waiting : ∀ migrationId, s.migrations.get? migrationId = none → Waiting s migrationId
  alone : ∀ migrationId m, s.project migrationId = some m → ∃ record : Migration,
    record.fresh = record ∧ migrationSystem.Reaches Transition.anyAction { record } m

variable {s t : ApplicationSystem}

theorem independent_empty : Independent {} where
  owns := ⟨fun _ _ _ h => (by cases h), fun k _ h => (by cases k <;> cases h),
    fun _ h => (by cases h)⟩
  waiting _ _ := ⟨fun k _ h => (by cases k <;> cases h), rfl, rfl⟩
  alone _ _ h := by cases h

/-- A migration starts with what had come for its id before. -/
theorem Waiting.reaches {migrationId : String} (h : Waiting s migrationId) {record : Migration}
    {m : MigrationSystem} (hrow : s.migrations.get? migrationId = some record)
    (hp : s.project migrationId = some m) :
    migrationSystem.Reaches Transition.anyAction { record } m := by
  have hstarts := MigrationSystem.reaches_calls (s := { record }) .start (h.requests .start)
  have hcancels := MigrationSystem.reaches_calls
    (s := { record, starts := [] ++ Owned.of migrationId s.starts }) .cancel (h.requests .cancel)
  have hm : m = { record,
                  starts := [] ++ Owned.of migrationId s.starts,
                  cancels := [] ++ Owned.of migrationId s.cancels } := by
    rw [project, hrow, Option.map_some, h.tasks, h.runs] at hp
    exact (Option.some.inj hp).symm
  rw [hm]
  exact hstarts.trans hcancels

theorem Independent.step (h : s.Independent) {a : ApplicationAction} (hstep : s.step a = some t) :
    t.Independent := by
  refine ⟨h.owns.step hstep, ?_, ?_⟩
  · intro migrationId hnone
    have hbefore := row_kept hstep hnone
    exact (h.waiting migrationId hbefore).step h.owns hbefore hstep
  · intro migrationId m hp
    cases hrow : s.migrations.get? migrationId with
    | none =>
      obtain ⟨record, hcreated, -⟩ := Option.map_eq_some_iff.mp hp
      exact ⟨record, row_created hstep hrow hcreated,
        ((h.waiting migrationId hrow).step h.owns hrow hstep).reaches hcreated hp⟩
    | some record =>
      obtain ⟨old, hold⟩ : ∃ old, s.project migrationId = some old := ⟨_, project_eq hrow⟩
      obtain ⟨first, hfresh, hreach⟩ := h.alone migrationId old hold
      refine ⟨first, hfresh, ?_⟩
      by_cases howner : s.owner a = some migrationId
      · obtain ⟨b, next, hnext, hproject⟩ := h.owns.own_step hstep howner hold
        rw [hproject] at hp
        cases hp
        exact hreach.trans (MigrationSystem.reaches_step hnext)
      · rw [(h.owns.untouched hstep howner).project, hold] at hp
        cases hp
        exact hreach

theorem independent_of_reaches (h : system.Reaches Transition.anyAction {} s) : s.Independent :=
  h.invariant (fun _ _ _ hs _ hstep => hs.step hstep) independent_empty

/-- What one migration does while the application goes on. -/
theorem project_reaches (hs : s.Independent) (h : system.Reaches Transition.anyAction s t)
    {migrationId : String} {m : MigrationSystem} (hp : s.project migrationId = some m) :
    ∃ m', t.project migrationId = some m' ∧
      migrationSystem.Reaches Transition.anyAction m m' := by
  have hgo : t.Independent ∧ ∃ m', t.project migrationId = some m' ∧
      migrationSystem.Reaches Transition.anyAction m m' := by
    refine h.invariant (I := fun t => t.Independent ∧ ∃ m', t.project migrationId = some m' ∧
      migrationSystem.Reaches Transition.anyAction m m') ?_ ⟨hs, m, hp, Transition.Reaches.refl m⟩
    rintro u a v ⟨hu, n, hn, hreach⟩ - hstep
    refine ⟨hu.step hstep, ?_⟩
    by_cases howner : u.owner a = some migrationId
    · obtain ⟨b, next, hnext, hproject⟩ := hu.owns.own_step hstep howner hn
      exact ⟨next, hproject, hreach.trans (MigrationSystem.reaches_step hnext)⟩
    · exact ⟨n, (hu.owns.untouched hstep howner).project.trans hn, hreach⟩
  exact hgo.2

/-- Whatever order the requests, the broker and the workers of all migrations take, each migration
stands where some order of its own steps takes it from its creation. -/
theorem migration_alone (h : system.Reaches Transition.anyAction {} s) {migrationId : String}
    {m : MigrationSystem} (hp : s.project migrationId = some m) : ∃ record : Migration,
    record.fresh = record ∧ migrationSystem.Reaches Transition.anyAction { record } m :=
  (independent_of_reaches h).alone migrationId m hp

private def quietRecord : Migration :=
  createdRecord "source" "destination" (some "tables") (some "settings") 1 3

private def twoMigrations : List ApplicationAction :=
  [.create "m" quietRecord, .beginStart "n", .beginStart "m", .start 0 .read, .start 1 .read,
    .create "n" quietRecord, .start 1 .check, .beginStart "n", .start 1 (.enqueue "t0" 1),
    .start 2 .read, .deliver "t0", .start 2 .check, .start 1 .commit,
    .start 2 (.enqueue "t1" 2), .run 0 .read, .beginCancel "m", .start 2 .commit,
    .cancel 0 .read, .run 0 (.commit 3), .cancel 0 .check, .cancel 0 (.revoke 4),
    .cancel 0 .commit, .terminate 0]

/-- "m" is cancelled while it runs, and "n" is refused before it exists and started after. -/
theorem migration_alone_twoMigrations : ∃ s m n, system.Reaches Transition.anyAction {} s ∧
    s.project "m" = some m ∧ m.record.status = .CANCELLED ∧
    (∃ record : Migration, record.fresh = record ∧
      migrationSystem.Reaches Transition.anyAction { record } m) ∧
    s.project "n" = some n ∧ n.record.status = .RUNNING ∧ n.starts.length = 2 ∧
    ∃ record : Migration, record.fresh = record ∧
      migrationSystem.Reaches Transition.anyAction { record } n := by
  have hrun : ∃ s, system.run Transition.anyAction {} twoMigrations = some s ∧
      (s.project "m").map (·.record.status) = some .CANCELLED ∧
      (s.project "n").map (fun n => (n.record.status, n.starts.length)) = some (.RUNNING, 2) :=
    ⟨_, rfl, by decide, by decide⟩
  obtain ⟨s, hs, hm, hn⟩ := hrun
  have hreach := Transition.reaches_of_run hs
  obtain ⟨m, hpm, hcancelled⟩ := Option.map_eq_some_iff.mp hm
  obtain ⟨n, hpn, hrunning⟩ := Option.map_eq_some_iff.mp hn
  obtain ⟨hstatus, htwo⟩ := Prod.mk.inj hrunning
  exact ⟨s, m, n, hreach, hpm, hcancelled, migration_alone hreach hpm, hpn, hstatus, htwo,
    migration_alone hreach hpn⟩

end ApplicationSystem

end DataBridge
