import DataBridge.System.Interleaving

namespace DataBridge

/-- The kinds of request on a migration. A call of either reads the row, checks what it has loaded,
turns to the broker and commits. -/
inductive RequestKind where
  | start
  | cancel

namespace RequestKind

abbrev State : RequestKind → Type
  | start => StartState
  | cancel => CancelState

abbrev Step : RequestKind → Type
  | start => StartAction
  | cancel => CancelAction

def begun : (k : RequestKind) → k.State
  | start => .begun
  | cancel => .begun

def raised (exc : Exc) : (k : RequestKind) → k.State
  | start => .raised exc
  | cancel => .raised exc

def fail (exc : Exc) : (k : RequestKind) → k.Step
  | start => .fail exc
  | cancel => .fail exc

def next (committed : Migration) : (k : RequestKind) → k.State → k.Step → Option k.State
  | start => StartState.next committed
  | cancel => CancelState.next committed

def row (committed : Migration) : (k : RequestKind) → k.State → k.Step → Migration
  | start => StartState.row committed
  | cancel => CancelState.row committed

def tasksAfter (tasks : Broker) : (k : RequestKind) → k.State → k.Step → Option Broker
  | start => fun _ a => tasks.accept a
  | cancel => fun state a => some (tasks.revokeFor state a)

/-- A call of the kind comes, and call `i` takes a step. -/
def arrival : RequestKind → Action
  | start => .beginStart
  | cancel => .beginCancel

def action : (k : RequestKind) → Nat → k.Step → Action
  | start => .start
  | cancel => .cancel

end RequestKind

namespace MigrationSystem

variable (s : MigrationSystem)

def calls : (k : RequestKind) → List k.State
  | .start => s.starts
  | .cancel => s.cancels

/-- The system with another row, other tasks and other calls of one kind. -/
def withCalls (record : Migration) (tasks : Broker) :
    (k : RequestKind) → List k.State → MigrationSystem
  | .start => fun starts => { s with record, tasks, starts }
  | .cancel => fun cancels => { s with record, tasks, cancels }

variable {s} {t : MigrationSystem} {record : Migration} {tasks : Broker}

@[simp] theorem withCalls_record (k : RequestKind) (states : List k.State) :
    (s.withCalls record tasks k states).record = record := by
  cases k <;> rfl

@[simp] theorem withCalls_tasks (k : RequestKind) (states : List k.State) :
    (s.withCalls record tasks k states).tasks = tasks := by
  cases k <;> rfl

@[simp] theorem withCalls_runs (k : RequestKind) (states : List k.State) :
    (s.withCalls record tasks k states).runs = s.runs := by
  cases k <;> rfl

@[simp] theorem withCalls_self (k : RequestKind) : s.withCalls s.record s.tasks k (s.calls k) = s := by
  cases k <;> rfl

@[simp] theorem withCalls_withCalls {record' : Migration} {tasks' : Broker} (k : RequestKind)
    (states states' : List k.State) :
    (s.withCalls record tasks k states).withCalls record' tasks' k states' =
      s.withCalls record' tasks' k states' := by
  cases k <;> rfl

@[simp] theorem calls_withCalls (k : RequestKind) (states : List k.State) :
    (s.withCalls record tasks k states).calls k = states := by
  cases k <;> rfl

/-- What holds of the new calls of one kind and of the old calls holds of all. -/
theorem forall_calls_withCalls {P : (k : RequestKind) → List k.State → Prop} {k : RequestKind}
    {states : List k.State} (h : P k states) (hold : ∀ k', P k' (s.calls k')) (k' : RequestKind) :
    P k' ((s.withCalls record tasks k states).calls k') := by
  cases k <;> cases k' <;> first | exact h | exact hold _

theorem step_arrival (k : RequestKind) :
    s.step k.arrival = some (s.withCalls s.record s.tasks k (s.calls k ++ [k.begun])) := by
  cases k <;> rfl

/-- A step of a request moves one call; only its commit changes the row. -/
theorem step_action_iff (k : RequestKind) {i : Nat} {a : k.Step} :
    s.step (k.action i a) = some t ↔
      ∃ state state' tasks, (s.calls k)[i]? = some state ∧ k.next s.record state a = some state' ∧
        k.tasksAfter s.tasks state a = some tasks ∧
        s.withCalls (k.row s.record state a) tasks k ((s.calls k).set i state') = t := by
  cases k with
  | start => exact stepStart_iff
  | cancel =>
    refine stepCancel_iff.trans ?_
    constructor
    · intro h
      obtain ⟨state, state', hi, hnext, ht⟩ := h
      exact ⟨state, state', _, hi, hnext, rfl, ht⟩
    · intro h
      obtain ⟨state, state', tasks, hi, hnext, htasks, ht⟩ := h
      cases htasks
      exact ⟨state, state', hi, hnext, ht⟩

/-- A call that has begun may raise at once. -/
theorem step_fail (k : RequestKind) {i : Nat} (exc : Exc) (hi : (s.calls k)[i]? = some k.begun) :
    s.step (k.action i (k.fail exc)) =
      some (s.withCalls s.record s.tasks k ((s.calls k).set i (k.raised exc))) := by
  refine (step_action_iff k).mpr ⟨k.begun, k.raised exc, s.tasks, hi, ?_, ?_, ?_⟩
  · cases k <;> rfl
  · cases k <;> rfl
  · cases k <;> rfl

/-- Calls that came before anything else happened. -/
theorem reaches_calls (k : RequestKind) {states : List k.State}
    (h : ∀ state ∈ states, state = k.begun ∨ ∃ exc, state = k.raised exc) :
    migrationSystem.Reaches Transition.anyAction s
      (s.withCalls s.record s.tasks k (s.calls k ++ states)) := by
  induction states generalizing s with
  | nil =>
    rw [List.append_nil, withCalls_self]
    exact Transition.Reaches.refl s
  | cons state states ih =>
    have hrest : ∀ x ∈ states, x = k.begun ∨ ∃ exc, x = k.raised exc := fun x hx =>
      h x (List.mem_cons_of_mem state hx)
    have hbegin := reaches_step (step_arrival (s := s) k)
    have hone : migrationSystem.Reaches Transition.anyAction s
        (s.withCalls s.record s.tasks k (s.calls k ++ [state])) := by
      rcases h state List.mem_cons_self with rfl | ⟨exc, rfl⟩
      · exact hbegin
      · have hlast : ((s.withCalls s.record s.tasks k (s.calls k ++ [k.begun])).calls k)[
            (s.calls k).length]? = some k.begun := by
          rw [calls_withCalls]
          exact List.getElem?_concat_length
        have hfail := reaches_step (step_fail k exc hlast)
        simp only [withCalls_record, withCalls_tasks, withCalls_withCalls, calls_withCalls] at hfail
        rw [List.set_append_right _ _ (Nat.le_refl _), Nat.sub_self, List.set_cons_zero] at hfail
        exact hbegin.trans hfail
    have hmore := ih (s := s.withCalls s.record s.tasks k (s.calls k ++ [state])) hrest
    simp only [withCalls_record, withCalls_tasks, withCalls_withCalls, calls_withCalls] at hmore
    rw [List.append_assoc, List.singleton_append] at hmore
    exact hone.trans hmore

end MigrationSystem

end DataBridge
