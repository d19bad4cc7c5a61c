import DataBridge.System.LiveTasks

namespace DataBridge

namespace RunState

/-- The run may end without setting the status again. -/
def late : RunState → Bool
  | .finalised => true
  | .ended => true
  | .session (.onFailure _) record => record.status = .FAILED
  | _ => false

/-- `on_failure` is called, or is in its session. -/
def inOnFailure : RunState → Bool
  | .raised _ => true
  | .session (.onFailure _) _ => true
  | _ => false

end RunState

namespace StartState

/-- The task id that the request has returned. -/
def returnedId : StartState → Option String
  | .returned taskId => some taskId
  | _ => none

theorem eq_returned {states : List StartState} {taskId : String}
    (h : states.map (·.returnedId) = [some taskId]) : states = [.returned taskId] := by
  obtain ⟨state, hstate, hid⟩ := List.map_eq_singleton_iff.mp h
  cases state <;> cases hid
  exact hstate

end StartState

/-- The two statuses that a finished run leaves. -/
def MigrationStatus.isOutcome (status : MigrationStatus) : Bool :=
  status = .COMPLETED ∨ status = .FAILED

namespace MigrationSystem

/-- One start and one run of its task, no cancel; the start commits while the run is still going
to set the status, and the session of `on_failure` does not fail while the start's RUNNING
stands. -/
def inOrder (s : MigrationSystem) : Action → Bool
  | .beginStart => s.starts.isEmpty
  | .start _ .commit => s.runs.all fun run => !run.state.late
  | .start _ _ => true
  | .deliver _ => s.runs.isEmpty
  | .run _ (.die _) => false
  | .run _ (.raise _) =>
    !(s.starts.any (·.returnedId.isSome) && s.record.status = .RUNNING &&
      s.runs.any (·.state.inOnFailure))
  | .run _ _ => true
  | _ => false

/-- The message of the task is acknowledged and no run of it is going on. -/
def TaskEnded (s : MigrationSystem) (taskId : String) : Prop :=
  (∃ entry, s.taskEntry taskId = some entry ∧ entry.acked = true) ∧
    ∀ run ∈ s.runs, run.taskId = taskId → run.state.active = false

end MigrationSystem

/-- The status is the outcome that the run wrote last. -/
def IsLastOutcome (status : MigrationStatus) (wrote : Option MigrationStatus) : Prop :=
  wrote = some status ∧ status.isOutcome = true

namespace RunState

/-- What a run's own steps make sure of: between its first commit and the session that sets the
outcome, the status is RUNNING and that session has read RUNNING. -/
def Tracks (status : MigrationStatus) : RunState → Prop
  | .session .mark record => record.status = .RUNNING → status = .RUNNING
  | .session (.progress _ _) _ => status = .RUNNING
  | .session (.finalise _) record => status = .RUNNING ∧ record.status = .RUNNING
  | .session (.handler _) record => status = .RUNNING ∧ record.status = .RUNNING
  | .marked => status = .RUNNING
  | .running => status = .RUNNING
  | .completed _ => status = .RUNNING
  | .failing _ => status = .RUNNING
  | .dead => False
  | _ => True

/-- What holds besides once the start has committed RUNNING. -/
def Settles (status : MigrationStatus) (wrote : Option MigrationStatus) : RunState → Prop
  | .began => status = .RUNNING
  | .session .mark _ => status = .RUNNING
  | .session (.onFailure _) record => (record.status = .FAILED → status = .FAILED) ∧
      (status = .RUNNING ∨ IsLastOutcome status wrote)
  | .failed => status = .RUNNING ∨ IsLastOutcome status wrote
  | .raised _ => status = .RUNNING ∨ IsLastOutcome status wrote
  | .finalised => IsLastOutcome status wrote
  | .ended => IsLastOutcome status wrote
  | .dead => False
  | _ => True

variable {committed : Migration} {state state' : RunState} {a : RunAction}

/-- The status after a commit of a session that read a status it does not set. -/
theorem row_commit_status {op : Session} {record : Migration} {status : MigrationStatus} {now : Nat}
    (hsets : op.sets = some status) (hne : record.status ≠ status) :
    ((session op record).row committed (.commit now)).status = status := by
  have hchange := Session.change_status_of_sets hsets record now
  rw [row, Migration.flush_status_written, hchange]
  rw [hchange]
  exact hne.symm

theorem row_commit_kept {op : Session} {record : Migration} {now : Nat}
    (h : (op.change record now).status = record.status) :
    ((session op record).row committed (.commit now)).status = committed.status :=
  Migration.flush_status_kept committed h

theorem row_mark_status {record : Migration} {now : Nat}
    (h : record.status = .RUNNING → committed.status = .RUNNING) :
    ((session .mark record).row committed (.commit now)).status = .RUNNING := by
  by_cases hr : record.status = .RUNNING
  · rw [row_commit_kept (hr.symm ▸ rfl)]
    exact h hr
  · exact row_commit_status rfl hr

theorem tracks_next (h : state.next committed a = some state')
    (ht : state.Tracks committed.status) (hdie : ∀ acked, a ≠ .die acked) :
    state'.Tracks (state.row committed a).status := by
  cases a with
  | die acked => exact absurd rfl (hdie acked)
  | read =>
    cases state with
    | began => cases h; exact fun hr => hr
    | completed result => cases h; exact ⟨ht, ht⟩
    | failing error => cases h; exact ⟨ht, ht⟩
    | raised error => cases h; trivial
    | _ => cases h
  | progress tableName total =>
    cases state with
    | running => cases h; exact ht
    | _ => cases h
  | commit now =>
    cases state with
    | session op record =>
      cases op with
      | mark => cases h; exact row_mark_status ht
      | progress tableName total => cases h; exact (row_commit_kept rfl).trans ht
      | _ => cases h; trivial
    | _ => cases h
  | advance =>
    cases state with
    | marked => cases h; exact ht
    | finalised => cases h; trivial
    | _ => cases h
  | complete result =>
    cases state with
    | running => cases h; exact ht
    | _ => cases h
  | swallow =>
    cases state with
    | session op record =>
      cases op with
      | progress tableName total => cases h; exact ht
      | _ => cases h
    | _ => cases h
  | raise error =>
    cases state with
    | session op record =>
      cases op with
      | progress tableName total => cases h; exact ht
      | _ => cases h; trivial
    | running => cases h; exact ht
    | ended => cases h
    | dead => cases h
    | _ => cases h; trivial

theorem isLastOutcome_commit {op : Session} {record : Migration} {status : MigrationStatus}
    {now : Nat} (wrote : Option MigrationStatus) (hsets : op.sets = some status)
    (houtcome : status.isOutcome = true)
    (hrow : ((session op record).row committed (.commit now)).status = status) :
    IsLastOutcome ((session op record).row committed (.commit now)).status
      (op.sets.or wrote) := by
  rw [hrow, hsets]
  exact ⟨rfl, houtcome⟩

/-- A commit of a session that sets an outcome leaves it as the last one written. -/
theorem settles_commit {op : Session} {record : Migration} {wrote : Option MigrationStatus}
    (ht : (session op record).Tracks committed.status)
    (hs : (session op record).Settles committed.status wrote) (now : Nat) :
    op.committed.Settles ((session op record).row committed (.commit now)).status
      (op.sets.or wrote) := by
  cases op with
  | mark => trivial
  | progress tableName total => trivial
  | finalise result =>
    have hne : record.status ≠ if result.failedTables = [] then .COMPLETED else .FAILED := by
      rw [ht.2]
      split <;> decide
    exact isLastOutcome_commit wrote rfl (by split <;> rfl) (row_commit_status rfl hne)
  | handler error =>
    have hne : record.status ≠ .FAILED := by
      rw [ht.2]
      decide
    exact Or.inr (isLastOutcome_commit wrote rfl rfl (row_commit_status rfl hne))
  | onFailure error =>
    have hrow : ((session (.onFailure error) record).row committed (.commit now)).status =
        .FAILED := by
      by_cases hr : record.status = .FAILED
      · rw [row_commit_kept (hr.symm ▸ rfl)]
        exact hs.1 hr
      · exact row_commit_status rfl hr
    exact isLastOutcome_commit wrote rfl rfl hrow

/-- An exception leaves the outcome written last, or a RUNNING that `on_failure` will replace. -/
theorem settles_raise {wrote : Option MigrationStatus} {error : String}
    (h : state.next committed (.raise error) = some state')
    (ht : state.Tracks committed.status) (hs : state.Settles committed.status wrote)
    (hlast : state.inOnFailure = true → committed.status ≠ .RUNNING) :
    state'.Settles committed.status wrote := by
  cases state with
  | began => cases h; exact Or.inl hs
  | session op record =>
    cases op with
    | mark => cases h; exact Or.inl hs
    | progress tableName total => cases h; trivial
    | finalise result => cases h; exact Or.inl ht.1
    | handler error => cases h; exact Or.inl ht.1
    | onFailure error => cases h; exact hs.2.resolve_left (hlast rfl)
  | marked => cases h; exact Or.inl ht
  | running => cases h; trivial
  | completed result => cases h; exact Or.inl ht
  | finalised => cases h; exact Or.inr hs
  | failing error => cases h; exact Or.inl ht
  | failed => cases h; exact hs
  | raised error => cases h; exact hs.resolve_left (hlast rfl)
  | ended => cases h
  | dead => cases h

/-- Once the start has committed, the run's own steps bring the outcome it wrote last. -/
theorem settles_next {run : Run} (h : run.state.next committed a = some state')
    (ht : run.state.Tracks committed.status) (hs : run.state.Settles committed.status run.wrote)
    (hdie : ∀ acked, a ≠ .die acked)
    (hlast : ∀ error, a = .raise error → run.state.inOnFailure = true →
      committed.status ≠ .RUNNING) :
    state'.Settles (run.state.row committed a).status (run.wroteAfter a) := by
  obtain ⟨taskId, state, wrote⟩ := run
  cases a with
  | die acked => exact absurd rfl (hdie acked)
  | read =>
    cases state with
    | began => cases h; exact hs
    | completed result => cases h; trivial
    | failing error => cases h; trivial
    | raised error => cases h; exact ⟨fun hf => hf, hs⟩
    | _ => cases h
  | progress tableName total => cases state <;> cases h; trivial
  | commit now =>
    cases state with
    | session op record =>
      cases h
      exact settles_commit ht hs now
    | _ => cases h
  | advance =>
    cases state with
    | marked => cases h; trivial
    | finalised => cases h; exact hs
    | _ => cases h
  | complete result => cases state <;> cases h; trivial
  | swallow =>
    cases state with
    | session op record => cases op <;> cases h; trivial
    | _ => cases h
  | raise error =>
    have hrow : state.row committed (.raise error) = committed := by cases state <;> rfl
    rw [hrow]
    exact settles_raise h ht hs (hlast error rfl)

/-- The start's RUNNING settles every run that is still going to set the status. -/
theorem settles_running {status : MigrationStatus} {wrote : Option MigrationStatus}
    (ht : state.Tracks status) (hlate : state.late = false) : state.Settles .RUNNING wrote := by
  cases state with
  | session op record =>
    cases op with
    | onFailure error =>
      have hne : record.status ≠ .FAILED := by simpa [late] using hlate
      exact ⟨fun hf => absurd hf hne, Or.inl rfl⟩
    | mark => rfl
    | _ => trivial
  | began => rfl
  | failed => exact Or.inl rfl
  | raised error => exact Or.inl rfl
  | finalised => cases hlate
  | ended => cases hlate
  | dead => exact ht.elim
  | _ => trivial

theorem tracks_running {status : MigrationStatus} (h : state.Tracks status) :
    state.Tracks .RUNNING := by
  cases state with
  | session op record =>
    cases op with
    | mark => exact fun _ => rfl
    | progress tableName total => rfl
    | finalise result => exact ⟨rfl, h.2⟩
    | handler error => exact ⟨rfl, h.2⟩
    | onFailure error => trivial
  | marked => rfl
  | running => rfl
  | completed result => rfl
  | failing error => rfl
  | dead => exact h
  | _ => trivial

end RunState

namespace MigrationSystem

/-- Nothing has been enqueued. -/
def Untouched (s : MigrationSystem) : Prop := s.tasks = Dict.empty ∧ s.runs = []

/-- Only the task `taskId` was ever enqueued: it waits, or it has one run, which keeps in step with
the row. -/
structure InStep (s : MigrationSystem) (taskId : String) (returned : Bool) : Prop where
  only : ∀ id entry, s.taskEntry id = some entry → id = taskId
  run : (s.runs = [] ∧ (∀ id entry, s.taskEntry id = some entry → entry.acked = false) ∧
      (returned = true → s.record.status = .RUNNING)) ∨
    ∃ run, s.runs = [run] ∧ run.taskId = taskId ∧ run.state.Tracks s.record.status ∧
      (returned = true → run.state.Settles s.record.status run.wrote)

/-- What the state of the only start says about the task. -/
def Follows (s : MigrationSystem) : StartState → Prop
  | .enqueued _ taskId _ => s.InStep taskId false
  | .returned taskId => s.InStep taskId true
  | .raised _ => True
  | _ => s.Untouched

def OneStart (s : MigrationSystem) : Prop :=
  s.starts = [] ∧ s.Untouched ∨ ∃ state, s.starts = [state] ∧ s.Follows state

variable {s t : MigrationSystem}

theorem Untouched.taskEntry (h : s.Untouched) (id : String) : s.taskEntry id = none := by
  rw [MigrationSystem.taskEntry, h.1]
  rfl

theorem singleton_getElem? {α : Type} {x y : α} {i : Nat} (h : [x][i]? = some y) :
    i = 0 ∧ y = x := by
  cases i with
  | zero => exact ⟨rfl, (Option.some.inj h).symm⟩
  | succ i => cases h

/-- The enqueue puts the only task in the queue. -/
theorem Untouched.enqueue {taskId : String} {now : Nat} (hs : s.Untouched)
    (haccept : s.tasks.accept (.enqueue taskId now) = some t.tasks) (hruns : t.runs = s.runs) :
    t.InStep taskId false := by
  have htasks : t.tasks = Dict.empty.set taskId {} := by
    rw [Broker.accept, hs.1] at haccept
    simpa using haccept.symm
  have hget : ∀ id entry, t.taskEntry id = some entry → id = taskId ∧ entry = {} := by
    intro id entry hentry
    rw [MigrationSystem.taskEntry, htasks, Dict.get?_set] at hentry
    split at hentry
    · rename_i hid
      exact ⟨hid, (Option.some.inj hentry).symm⟩
    · cases hentry
  refine ⟨fun id entry hentry => (hget id entry hentry).1,
    Or.inl ⟨hruns.trans hs.2, ?_, by simp⟩⟩
  intro id entry hentry
  rw [(hget id entry hentry).2]

/-- The start's commit comes while the run, if there is one, is still going to set the status. -/
theorem InStep.commit {taskId : String} (hs : s.InStep taskId false) (htasks : t.tasks = s.tasks)
    (hruns : t.runs = s.runs) (hstatus : t.record.status = .RUNNING)
    (hlate : ∀ run ∈ s.runs, run.state.late = false) : t.InStep taskId true := by
  have hentry : t.taskEntry = s.taskEntry := by
    funext id
    rw [MigrationSystem.taskEntry, MigrationSystem.taskEntry, htasks]
  refine ⟨by rw [hentry]; exact hs.only, ?_⟩
  rw [hruns, hstatus, hentry]
  rcases hs.run with ⟨hnone, hacked, -⟩ | ⟨run, hrun, hid, htracks, -⟩
  · exact Or.inl ⟨hnone, hacked, fun _ => rfl⟩
  · have hnot : run.state.late = false := hlate run (by simp [hrun])
    exact Or.inr ⟨run, hrun, hid, RunState.tracks_running htracks,
      fun _ => RunState.settles_running htracks hnot⟩

/-- The start takes its next step. -/
theorem follows_start {state : StartState} {i : Nat} {a : StartAction}
    (hs : s.starts = [state]) (hf : s.Follows state) (ha : s.inOrder (.start i a) = true)
    (h : s.step (.start i a) = some t) : t.OneStart := by
  obtain ⟨state₁, state', tasks, hi, hnext, haccept, he⟩ := stepStart_iff.mp h
  rw [hs] at hi
  obtain ⟨hi0, hstate⟩ := singleton_getElem? hi
  subst hi0 hstate
  refine Or.inr ⟨state', by rw [← he, hs]; rfl, ?_⟩
  cases a with
  | read =>
    cases haccept
    subst he
    cases state₁ <;> cases hnext
    exact hf
  | check =>
    cases haccept
    subst he
    cases state₁ with
    | loaded record =>
      by_cases hstartable : record.status.startable = true
      · rw [StartState.next, checkStart, dif_pos hstartable] at hnext
        cases hnext
        exact hf
      · rw [StartState.next, checkStart, dif_neg hstartable] at hnext
        cases hnext
        trivial
    | _ => cases hnext
  | enqueue taskId now =>
    subst he
    cases state₁ with
    | checked record => cases hnext; exact Untouched.enqueue hf haccept rfl
    | _ => cases hnext
  | commit =>
    cases haccept
    subst he
    cases state₁ with
    | enqueued record taskId now =>
      cases hnext
      have hstatus := flush_startedRecord_status record taskId now s.record
      have hlate : ∀ run ∈ s.runs, run.state.late = false := by simpa [inOrder] using ha
      exact InStep.commit hf rfl rfl hstatus hlate
    | _ => cases hnext
  | fail exc =>
    cases haccept
    subst he
    cases state₁ <;> cases hnext <;> trivial

/-- The run of the only task takes its next step. -/
theorem InStep.step_run {taskId : String} {returned : Bool} {i : Nat} {a : RunAction}
    (hs : s.InStep taskId returned) (h : s.step (.run i a) = some t)
    (hdie : ∀ acked, a ≠ .die acked)
    (hlast : returned = true → ∀ error, a = .raise error → s.record.status = .RUNNING →
      ∀ run ∈ s.runs, run.state.inOnFailure = false) : t.InStep taskId returned := by
  obtain ⟨run, state', hi, hnext, he⟩ := stepRun_iff.mp h
  rcases hs.run with ⟨hnone, -⟩ | ⟨run₁, hrun, hid, htracks, hsettles⟩
  · rw [hnone] at hi
    cases hi
  · rw [hrun] at hi
    obtain ⟨hi0, heq⟩ := singleton_getElem? hi
    subst hi0 heq
    have honly : ∀ acks : Bool, ∀ id entry,
        (if acks then s.tasks.ack run.taskId else s.tasks).get? id = some entry → id = taskId := by
      intro acks id entry hentry
      cases acks with
      | false => exact hs.only id entry hentry
      | true =>
        rw [if_pos rfl, Broker.ack_get?] at hentry
        obtain ⟨old, hold, -⟩ := Option.map_eq_some_iff.mp hentry
        exact hs.only id old hold
    have hruns : t.runs = [{ run with state := state', wrote := run.wroteAfter a }] := by
      rw [← he, hrun]
      rfl
    have hrow : t.record = run.state.row s.record a := by rw [← he]
    refine ⟨by subst he; exact honly _, Or.inr ⟨_, hruns, hid, ?_, ?_⟩⟩
    · rw [hrow]
      exact RunState.tracks_next hnext htracks hdie
    · intro hret
      rw [hrow]
      apply RunState.settles_next hnext htracks (hsettles hret) hdie
      intro error heq hin hstatus
      have hnot := hlast hret error heq hstatus run (by simp [hrun])
      rw [hin] at hnot
      cases hnot

theorem InStep.deliver {taskId id : String} {returned : Bool} (hs : s.InStep taskId returned)
    (hnone : s.runs = []) (h : s.step (.deliver id) = some t) : t.InStep taskId returned := by
  obtain ⟨entry, hentry, -, he⟩ := deliver_iff.mp h
  have hid := hs.only id entry hentry
  rcases hs.run with ⟨-, -, hstatus⟩ | ⟨run, hrun, -⟩
  · subst he
    refine ⟨hs.only, Or.inr ⟨{ taskId := id }, ?_, hid, trivial, hstatus⟩⟩
    rw [hnone]
    rfl
  · rw [hnone] at hrun
    cases hrun

theorem oneStart_step {a : Action} (h : s.step a = some t) (ha : s.inOrder a = true)
    (hs : s.OneStart) : t.OneStart := by
  cases a with
  | beginStart =>
    cases h
    have hnone : s.starts = [] := by simpa [inOrder] using ha
    rcases hs with ⟨-, huntouched⟩ | ⟨state, hstate, -⟩
    · exact Or.inr ⟨.begun, by rw [hnone]; rfl, huntouched⟩
    · rw [hnone] at hstate
      cases hstate
  | start i a =>
    rcases hs with ⟨hnone, -⟩ | ⟨state, hstate, hf⟩
    · obtain ⟨_, _, _, hi, -⟩ := stepStart_iff.mp h
      rw [hnone] at hi
      cases hi
    · exact follows_start hstate hf ha h
  | deliver taskId =>
    have hnone : s.runs = [] := by simpa [inOrder] using ha
    obtain ⟨entry, hentry, -, he⟩ := deliver_iff.mp h
    have hno : ¬ s.Untouched := by
      intro hu
      rw [hu.taskEntry] at hentry
      cases hentry
    rcases hs with ⟨-, hu⟩ | ⟨state, hstate, hf⟩
    · exact absurd hu hno
    · refine Or.inr ⟨state, by rw [← he]; exact hstate, ?_⟩
      cases state with
      | enqueued record id now => exact InStep.deliver hf hnone h
      | returned id => exact InStep.deliver hf hnone h
      | raised exc => trivial
      | _ => exact absurd hf hno
  | run i a =>
    obtain ⟨run, _, hi, -, he⟩ := stepRun_iff.mp h
    have hno : ¬ s.Untouched := by
      intro hu
      rw [hu.2] at hi
      cases hi
    have hdie : ∀ acked, a ≠ .die acked := by
      intro acked heq
      subst heq
      cases ha
    rcases hs with ⟨-, hu⟩ | ⟨state, hstate, hf⟩
    · exact absurd hu hno
    · refine Or.inr ⟨state, by rw [← he]; exact hstate, ?_⟩
      cases state with
      | enqueued record id now => exact InStep.step_run hf h hdie (by simp)
      | returned id =>
        apply InStep.step_run hf h hdie
        intro _ error heq hstatus run hrun
        subst heq
        by_contra hin
        have hin' : s.runs.any (·.state.inOnFailure) = true :=
          List.any_eq_true.mpr ⟨run, hrun, by simpa using hin⟩
        simp [inOrder, hstate, StartState.returnedId, hstatus, hin'] at ha
      | raised exc => trivial
      | _ => exact absurd hf hno
  | _ => cases ha

/-- When the start commits in time, a finished run leaves the outcome it wrote last. -/
theorem outcome_kept {record : Migration} {taskId : String}
    (h : migrationSystem.Reaches (fun s a => s.inOrder a = true) { record } t)
    (hret : t.starts = [.returned taskId]) (hend : t.TaskEnded taskId) :
    ∃ run, t.runs = [run] ∧ run.wrote = some t.record.status ∧
      (t.record.status = .COMPLETED ∨ t.record.status = .FAILED) := by
  have hkeep : ∀ u a v, u.OneStart → u.inOrder a = true → migrationSystem.step u a = some v →
      v.OneStart := fun _ _ _ hu ha hstep => oneStart_step hstep ha hu
  have hone := h.invariant hkeep (Or.inl ⟨rfl, rfl, rfl⟩)
  rcases hone with ⟨hnone, -⟩ | ⟨state, hstate, hf⟩
  · rw [hnone] at hret
    cases hret
  · rw [hret] at hstate
    cases hstate
    obtain ⟨⟨entry, hentry, hacked⟩, hinactive⟩ := hend
    rcases hf.run with ⟨-, hwaits, -⟩ | ⟨run, hrun, hid, htracks, hsettles⟩
    · rw [hwaits taskId entry hentry] at hacked
      cases hacked
    · have hstop := hinactive run (by simp [hrun]) hid
      have hs := hsettles rfl
      refine ⟨run, hrun, ?_⟩
      cases hcase : run.state with
      | ended =>
        rw [hcase] at hs
        exact ⟨hs.1, by simpa [MigrationStatus.isOutcome] using hs.2⟩
      | dead =>
        rw [hcase] at htracks
        exact htracks.elim
      | _ =>
        rw [hcase] at hstop
        cases hstop

/-- The start commits while the worker is copying: the run ends COMPLETED. -/
theorem outcome_kept_prompt : ∃ t,
    migrationSystem.Reaches (fun s a => s.inOrder a = true) created t ∧
    ∃ run, t.runs = [run] ∧ run.wrote = some t.record.status ∧
      (t.record.status = .COMPLETED ∨ t.record.status = .FAILED) := by
  have hrun : (migrationSystem.run (fun s a => s.inOrder a = true) created
      [.beginStart, .start 0 .read, .start 0 .check, .start 0 (.enqueue "t0" 1), .deliver "t0",
        .run 0 .read, .run 0 (.commit 2), .start 0 .commit, .run 0 .advance,
        .run 0 (.complete ⟨["users"], [], [], 3⟩), .run 0 .read, .run 0 (.commit 4),
        .run 0 .advance]).map
      (fun t => (t.starts.map (·.returnedId) = [some "t0"]) &&
        ((t.taskEntry "t0").map (·.acked) = some true) && t.runs.all fun run => !run.state.active) =
      some true := by decide
  obtain ⟨t, hreach, hp⟩ := Transition.exists_of_run hrun
  simp only [Bool.and_eq_true, decide_eq_true_eq, List.all_eq_true, Bool.not_eq_true'] at hp
  obtain ⟨⟨hstarts, hacked⟩, hinactive⟩ := hp
  have hret := StartState.eq_returned hstarts
  obtain ⟨entry, hentry, hentryAcked⟩ := Option.map_eq_some_iff.mp hacked
  exact ⟨t, hreach, outcome_kept hreach hret
    ⟨⟨entry, hentry, hentryAcked⟩, fun run hmem _ => hinactive run hmem⟩⟩

/-- The worker is faster than the request: it commits COMPLETED and ends, then the start commits
RUNNING. -/
theorem outcome_lost :
    (migrationSystem.run Transition.anyAction created
      [.beginStart, .start 0 .read, .start 0 .check, .start 0 (.enqueue "t0" 1), .deliver "t0",
        .run 0 .read, .run 0 (.commit 2), .run 0 .advance,
        .run 0 (.complete ⟨["users"], [], [], 3⟩), .run 0 .read, .run 0 (.commit 4),
        .run 0 .advance, .start 0 .commit]).map
      (fun t => (t.record.status, t.starts.map (·.returnedId), t.runs.map (·.state.active),
        t.runs.map (·.wrote))) =
    some (.RUNNING, [some "t0"], [false], [some .COMPLETED]) := by
  decide

/-- A start that commits too late can be the last to write: the run ends and RUNNING stands. -/
theorem late_commit_loses {i j : Nat} {record : Startable} {taskId : String} {now : Nat} {run : Run}
    (hi : s.starts[i]? = some (.enqueued record taskId now)) (hj : s.runs[j]? = some run)
    (hlate : run.state.late = true) : ∃ t,
      migrationSystem.Reaches Transition.anyAction s t ∧ t.record.status = .RUNNING ∧
      t.starts[i]? = some (.returned taskId) ∧
      ∃ run', t.runs[j]? = some run' ∧ run'.state = .ended := by
  have hnext : (StartState.enqueued record taskId now).next s.record .commit =
      some (.returned taskId) := rfl
  obtain ⟨u, hcommit, hrecord, hstarts, -, hruns⟩ := exists_stepStart hi hnext rfl
  have hstatus : u.record.status = .RUNNING := by
    rw [hrecord]
    exact flush_startedRecord_status record taskId now s.record
  have hreturned : u.starts[i]? = some (.returned taskId) := by
    rw [hstarts]
    exact getElem?_set_of_some hi
  have hju : u.runs[j]? = some run := by
    rw [hruns]
    exact hj
  have hfinish : ∀ a, run.state.next u.record a = some .ended →
      (run.state.row u.record a).status = .RUNNING → ∃ t,
        migrationSystem.Reaches Transition.anyAction s t ∧ t.record.status = .RUNNING ∧
        t.starts[i]? = some (.returned taskId) ∧
        ∃ run', t.runs[j]? = some run' ∧ run'.state = .ended := by
    intro a hnext hrow
    obtain ⟨t, hend, ht, hts, hrun'⟩ := exists_stepRun hju hnext
    exact ⟨t, (reaches_step hcommit).trans (reaches_step hend), by rw [ht, hrow],
      by rw [hts, hreturned], hrun'⟩
  cases hstate : run.state with
  | ended => exact ⟨u, reaches_step hcommit, hstatus, hreturned, run, hju, hstate⟩
  | finalised =>
    rw [hstate] at hfinish
    exact hfinish .advance rfl hstatus
  | session op loaded =>
    rw [hstate] at hfinish hlate
    cases op with
    | onFailure error =>
      have hfailed : loaded.status = .FAILED := by simpa [RunState.late] using hlate
      exact hfinish (.commit 0) rfl ((RunState.row_commit_kept (hfailed.symm ▸ rfl)).trans hstatus)
    | _ => cases hlate
  | _ =>
    rw [hstate] at hlate
    cases hlate

end MigrationSystem

end DataBridge
