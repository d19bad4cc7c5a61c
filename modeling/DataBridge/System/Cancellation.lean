import DataBridge.System.Interleaving
import Mathlib.Data.Fintype.EquivFin

namespace DataBridge

/-- The request has read a status it may start from, and may still commit RUNNING. -/
def StartState.pending : StartState → Bool
  | .loaded record => record.status.startable
  | .checked _ => true
  | .enqueued _ _ _ => true
  | _ => false

/-- The run may still set the status of the record. -/
def RunState.pending : RunState → Bool
  | .ended => false
  | .dead => false
  | .session (.onFailure _) record => record.status ≠ .FAILED
  | _ => true

/-- No request but cancels, no queued task and no run may still set the status. -/
structure MigrationSystem.Quiet (s : MigrationSystem) : Prop where
  starts : ∀ state ∈ s.starts, state.pending = false
  tasks : ∀ taskId entry, s.taskEntry taskId = some entry → entry.acked = true
  runs : ∀ run ∈ s.runs, run.state.pending = false

section quiet

variable {committed : Migration}

theorem StartState.next_quiet {state state' : StartState} {a : StartAction}
    (hstatus : committed.status = .CANCELLED) (hquiet : state.pending = false)
    (h : state.next committed a = some state') :
    state'.pending = false ∧ state.row committed a = committed := by
  cases state with
  | begun =>
    cases a with
    | read =>
      cases h
      refine ⟨?_, rfl⟩
      rw [pending, hstatus]
      rfl
    | fail exc => cases h; exact ⟨rfl, rfl⟩
    | _ => cases h
  | loaded record =>
    cases a with
    | check =>
      have hnot : checkStart record = .error (notStartable record) := by
        rw [pending] at hquiet
        rw [checkStart, dif_neg (by simp [hquiet])]
      rw [next, hnot] at h
      cases h
      exact ⟨rfl, rfl⟩
    | fail exc => cases h; exact ⟨rfl, rfl⟩
    | _ => cases h
  | checked record => cases hquiet
  | enqueued record taskId now => cases hquiet
  | returned taskId => cases a <;> cases h
  | raised exc => cases a <;> cases h

theorem StartState.quiet_not_enqueue {state state' : StartState} {a : StartAction}
    {tasks tasks' : Broker} (hquiet : state.pending = false)
    (h : state.next committed a = some state') (haccept : tasks.accept a = some tasks') :
    tasks' = tasks := by
  cases a with
  | enqueue taskId now =>
    cases state <;> cases h
    cases hquiet
  | _ => cases haccept; rfl

/-- A cancel only ever commits CANCELLED. -/
theorem CancelState.row_cancelled {state : CancelState} {a : CancelAction}
    (hstatus : committed.status = .CANCELLED) : (state.row committed a).status = .CANCELLED := by
  cases state with
  | revoked record now =>
    cases a with
    | commit => exact flush_cancelledRecord_status record now committed
    | _ => exact hstatus
  | _ => exact hstatus

theorem CancelState.revokeFor_acked {state : CancelState} {a : CancelAction} {tasks : Broker}
    (htasks : ∀ id entry, tasks.get? id = some entry → entry.acked = true) :
    ∀ id entry, (tasks.revokeFor state a).get? id = some entry → entry.acked = true := by
  have hrevoke : ∀ taskId id entry, (tasks.revoke taskId).get? id = some entry →
      entry.acked = true := by
    intro taskId id entry h
    rw [Broker.revoke_get?] at h
    obtain ⟨old, hold, he⟩ := Option.map_eq_some_iff.mp h
    have hacked := htasks id old hold
    subst he
    split <;> exact hacked
  unfold Broker.revokeFor
  split
  · split
    · exact htasks
    · split
      · exact htasks
      · exact hrevoke _
  · exact htasks

/-- A run that may not set the status any more does not. -/
theorem RunState.next_quiet {state state' : RunState} {a : RunAction}
    (hstatus : committed.status = .CANCELLED) (hquiet : state.pending = false)
    (h : state.next committed a = some state') :
    state'.pending = false ∧ (state.row committed a).status = .CANCELLED := by
  cases state with
  | session op record =>
    cases op with
    | onFailure error =>
      have hfailed : record.status = .FAILED := by simpa [pending] using hquiet
      cases a with
      | commit now =>
        cases h
        refine ⟨rfl, ?_⟩
        rw [← hstatus]
        exact Migration.flush_status_kept committed (by rw [hfailed]; rfl)
      | raise error => cases h; exact ⟨rfl, hstatus⟩
      | die acked => cases h; exact ⟨rfl, hstatus⟩
      | _ => cases h
    | _ => cases hquiet
  | ended => cases a <;> cases h
  | dead => cases a <;> cases h
  | _ => cases hquiet

theorem Broker.ack_acked {tasks : Broker} {taskId : String}
    (htasks : ∀ id entry, tasks.get? id = some entry → entry.acked = true) :
    ∀ id entry, (tasks.ack taskId).get? id = some entry → entry.acked = true := by
  intro id entry h
  rw [Broker.ack_get?] at h
  obtain ⟨old, hold, he⟩ := Option.map_eq_some_iff.mp h
  have hacked := htasks id old hold
  subst he
  split
  · rfl
  · exact hacked

end quiet

namespace MigrationSystem

variable {s t : MigrationSystem}

theorem forall_mem_set {α : Type} {p : α → Prop} {xs : List α} {i : Nat} {x : α}
    (hxs : ∀ y ∈ xs, p y) (hx : p x) : ∀ y ∈ xs.set i x, p y := by
  intro y hy
  rcases List.mem_or_eq_of_mem_set hy with hold | hnew
  · exact hxs y hold
  · exact hnew ▸ hx

/-- Once nothing else may set the status, CANCELLED stays. -/
theorem quiet_step {a : Action} (h : s.step a = some t)
    (hs : s.record.status = .CANCELLED ∧ s.Quiet) : t.record.status = .CANCELLED ∧ t.Quiet := by
  obtain ⟨hstatus, hquiet⟩ := hs
  cases a with
  | beginStart =>
    cases h
    refine ⟨hstatus, ?_, hquiet.tasks, hquiet.runs⟩
    intro state hmem
    rcases List.mem_append.mp hmem with hold | hnew
    · exact hquiet.starts state hold
    · rw [List.mem_singleton.mp hnew]
      rfl
  | start i a =>
    obtain ⟨state, state', tasks, hstate, hnext, haccept, he⟩ := stepStart_iff.mp h
    have hpending := hquiet.starts state (List.mem_of_getElem? hstate)
    obtain ⟨hpending', hrow⟩ := StartState.next_quiet hstatus hpending hnext
    have htasks := StartState.quiet_not_enqueue hpending hnext haccept
    subst he htasks
    refine ⟨?_, forall_mem_set hquiet.starts hpending', hquiet.tasks, hquiet.runs⟩
    change (state.row s.record a).status = .CANCELLED
    rw [hrow]
    exact hstatus
  | beginCancel =>
    cases h
    exact ⟨hstatus, hquiet.starts, hquiet.tasks, hquiet.runs⟩
  | cancel i a =>
    obtain ⟨state, state', -, -, he⟩ := stepCancel_iff.mp h
    subst he
    exact ⟨CancelState.row_cancelled hstatus, hquiet.starts,
      CancelState.revokeFor_acked hquiet.tasks, hquiet.runs⟩
  | deliver taskId =>
    obtain ⟨entry, hentry, hacked, -⟩ := deliver_iff.mp h
    rw [hquiet.tasks taskId entry hentry] at hacked
    cases hacked
  | discard taskId =>
    obtain ⟨entry, -, -, he⟩ := discard_iff.mp h
    subst he
    exact ⟨hstatus, hquiet.starts, Broker.ack_acked hquiet.tasks, hquiet.runs⟩
  | terminate i =>
    obtain ⟨run, -, -, he⟩ := terminate_spec h
    subst he
    exact ⟨hstatus, hquiet.starts, Broker.ack_acked hquiet.tasks,
      forall_mem_set hquiet.runs rfl⟩
  | run i a =>
    obtain ⟨run, state, hrun, hnext, he⟩ := stepRun_iff.mp h
    have hpending := hquiet.runs run (List.mem_of_getElem? hrun)
    obtain ⟨hpending', hrow⟩ := RunState.next_quiet hstatus hpending hnext
    have htasks : ∀ acks : Bool, ∀ id entry,
        (if acks then s.tasks.ack run.taskId else s.tasks).get? id = some entry →
          entry.acked = true := by
      intro acks
      cases acks with
      | false => exact hquiet.tasks
      | true => exact Broker.ack_acked hquiet.tasks
    subst he
    exact ⟨hrow, hquiet.starts, htasks _, forall_mem_set hquiet.runs hpending'⟩

/-! A state that is not quiet has a continuation that takes the status from CANCELLED. -/

/-- Some continuation leaves CANCELLED. -/
def MayLeave (s : MigrationSystem) : Prop :=
  ∃ t, migrationSystem.Reaches Transition.anyAction s t ∧ t.record.status ≠ .CANCELLED

theorem MayLeave.of_step {a : Action} (h : s.step a = some t) (ht : t.MayLeave) : s.MayLeave := by
  obtain ⟨u, hreach, hu⟩ := ht
  exact ⟨u, Transition.Reaches.head trivial h hreach, hu⟩

theorem mayLeave_of_status (h : s.record.status ≠ .CANCELLED) : s.MayLeave :=
  ⟨s, Transition.Reaches.refl s, h⟩

section start

variable {i : Nat}

/-- After one step of request `i` it is enough to go on from its new state. -/
theorem mayLeave_of_start {state state' : StartState} {a : StartAction} {tasks : Broker}
    (h : s.starts[i]? = some state) (hnext : state.next s.record a = some state')
    (haccept : s.tasks.accept a = some tasks)
    (hrest : ∀ t : MigrationSystem, t.starts[i]? = some state' → t.record = state.row s.record a →
      t.MayLeave) : s.MayLeave := by
  have hstep := stepStart_iff.mpr ⟨state, state', tasks, h, hnext, haccept, rfl⟩
  apply MayLeave.of_step (a := .start i a) hstep
  apply hrest
  · exact getElem?_set_of_some h
  · rfl

theorem mayLeave_enqueued {record : Startable} {taskId : String} {now : Nat}
    (h : s.starts[i]? = some (.enqueued record taskId now)) : s.MayLeave := by
  have hnext : (StartState.enqueued record taskId now).next s.record .commit =
      some (.returned taskId) := rfl
  apply mayLeave_of_start h hnext rfl
  intro t _ hrecord
  apply mayLeave_of_status
  have hrow := flush_startedRecord_status record taskId now s.record
  rw [hrecord, StartState.row, hrow]
  decide

theorem exists_fresh (tasks : Broker) : ∃ taskId, taskId ∉ tasks.keys := by
  obtain ⟨taskId, hfresh⟩ := Infinite.exists_notMem_finset tasks.keys.toFinset
  exact ⟨taskId, fun hmem => hfresh (List.mem_toFinset.mpr hmem)⟩

theorem mayLeave_checked {record : Startable} (h : s.starts[i]? = some (.checked record)) :
    s.MayLeave := by
  obtain ⟨taskId, hfresh⟩ := exists_fresh s.tasks
  have haccept : s.tasks.accept (.enqueue taskId 0) = some (s.tasks.set taskId {}) := by
    rw [Broker.accept, if_neg hfresh]
  have hnext : (StartState.checked record).next s.record (.enqueue taskId 0) =
      some (.enqueued record taskId 0) := rfl
  apply mayLeave_of_start h hnext haccept
  intro t ht _
  exact mayLeave_enqueued ht

theorem mayLeave_loaded {record : Migration} (h : s.starts[i]? = some (.loaded record))
    (hstartable : record.status.startable = true) : s.MayLeave := by
  apply mayLeave_of_start h (StartState.next_check s.record hstartable)
    (rfl : s.tasks.accept .check = some s.tasks)
  intro t ht _
  exact mayLeave_checked ht

end start

theorem mayLeave_start {state : StartState} (hmem : state ∈ s.starts)
    (hpending : state.pending = true) : s.MayLeave := by
  obtain ⟨i, hi⟩ := List.mem_iff_getElem?.mp hmem
  cases state with
  | loaded record => exact mayLeave_loaded hi hpending
  | checked record => exact mayLeave_checked hi
  | enqueued record taskId now => exact mayLeave_enqueued hi
  | _ => cases hpending

section run

variable {i : Nat} {run : Run}

/-- After one step of run `i` it is enough to go on from its new state. -/
theorem mayLeave_run {a : RunAction} {state : RunState} (h : s.runs[i]? = some run)
    (hnext : run.state.next s.record a = some state)
    (hrest : ∀ t : MigrationSystem, (∃ run', t.runs[i]? = some run' ∧ run'.state = state) →
      t.record = run.state.row s.record a → t.MayLeave) : s.MayLeave := by
  obtain ⟨t, hstep, hrecord, -, hrun⟩ := exists_stepRun h hnext
  exact MayLeave.of_step hstep (hrest t hrun hrecord)

theorem mayLeave_onFailure {error : String} {record : Migration} (h : s.runs[i]? = some run)
    (hstate : run.state = .session (.onFailure error) record) (hnot : record.status ≠ .FAILED) :
    s.MayLeave := by
  have hnext : run.state.next s.record (.commit 0) = some .ended := by
    rw [hstate]
    rfl
  apply mayLeave_run h hnext
  intro t _ hrecord
  apply mayLeave_of_status
  have hrow : t.record = record.flush (failedRecord record error 0) s.record := by
    rw [hrecord, hstate]
    rfl
  have hwritten : t.record.status = .FAILED := by
    rw [hrow]
    exact Migration.flush_status_written s.record hnot.symm
  rw [hwritten]
  decide

theorem mayLeave_raised {error : String} (hstatus : s.record.status = .CANCELLED)
    (h : s.runs[i]? = some run) (hstate : run.state = .raised error) : s.MayLeave := by
  have hnext : run.state.next s.record .read = some (.session (.onFailure error) s.record) := by
    rw [hstate]
    rfl
  apply mayLeave_run h hnext
  intro t ht _
  obtain ⟨run', hrun', hstate'⟩ := ht
  apply mayLeave_onFailure hrun' hstate'
  rw [hstatus]
  decide

theorem mayLeave_of_raise (hstatus : s.record.status = .CANCELLED) (h : s.runs[i]? = some run)
    (hnext : run.state.next s.record (.raise "") = some (.raised "")) : s.MayLeave := by
  apply mayLeave_run h hnext
  intro t ht hrecord
  obtain ⟨run', hrun', hstate'⟩ := ht
  apply mayLeave_raised _ hrun' hstate'
  rw [hrecord]
  cases hrow : run.state <;> exact hstatus

/-- A run that may still set the status may set FAILED: every exception ends in `on_failure`. -/
theorem mayLeave_pending_run (hstatus : s.record.status = .CANCELLED) (hmem : run ∈ s.runs)
    (hpending : run.state.pending = true) : s.MayLeave := by
  obtain ⟨i, hi⟩ := List.mem_iff_getElem?.mp hmem
  have hfailing : run.state.next s.record (.raise "") = some (.failing "") → s.MayLeave := by
    intro hnext
    apply mayLeave_run hi hnext
    intro t ht hrecord
    obtain ⟨run', hrun', hstate'⟩ := ht
    apply mayLeave_of_raise _ hrun'
    · rw [hstate']
      rfl
    · rw [hrecord]
      cases hrow : run.state <;> exact hstatus
  cases hstate : run.state with
  | ended => rw [hstate] at hpending; cases hpending
  | dead => rw [hstate] at hpending; cases hpending
  | raised error => exact mayLeave_raised hstatus hi hstate
  | running => exact hfailing (by rw [hstate]; rfl)
  | session op record =>
    cases op with
    | progress tableName total => exact hfailing (by rw [hstate]; rfl)
    | onFailure error =>
      rw [hstate] at hpending
      exact mayLeave_onFailure hi hstate (by simpa [RunState.pending] using hpending)
    | _ => exact mayLeave_of_raise hstatus hi (by rw [hstate]; rfl)
  | _ => exact mayLeave_of_raise hstatus hi (by rw [hstate]; rfl)

end run

theorem mayLeave_queued {taskId : String} {entry : TaskEntry}
    (hstatus : s.record.status = .CANCELLED) (hentry : s.taskEntry taskId = some entry)
    (hacked : entry.acked = false) : s.MayLeave := by
  have hstep := deliver_iff.mpr ⟨entry, hentry, hacked, rfl⟩
  apply MayLeave.of_step (a := .deliver taskId) hstep
  have hmem : { taskId := taskId } ∈ s.runs ++ [{ taskId := taskId }] :=
    List.mem_append_right s.runs (List.mem_singleton_self _)
  exact mayLeave_pending_run hstatus hmem rfl

theorem mayLeave_of_not_quiet (hstatus : s.record.status = .CANCELLED) (h : ¬ s.Quiet) :
    s.MayLeave := by
  by_contra hstays
  apply h
  constructor
  · intro state hmem
    by_contra hpending
    exact hstays (mayLeave_start hmem (by simpa using hpending))
  · intro taskId entry hentry
    by_contra hacked
    exact hstays (mayLeave_queued hstatus hentry (by simpa using hacked))
  · intro run hmem
    by_contra hpending
    exact hstays (mayLeave_pending_run hstatus hmem (by simpa using hpending))

theorem stays_cancelled_iff (hstatus : s.record.status = .CANCELLED) :
    (∀ t, migrationSystem.Reaches Transition.anyAction s t → t.record.status = .CANCELLED) ↔
      s.Quiet := by
  constructor
  · intro hstays
    by_contra hnot
    obtain ⟨t, hreach, hleft⟩ := mayLeave_of_not_quiet hstatus hnot
    exact hleft (hstays t hreach)
  · intro hquiet t hreach
    have hkeep : ∀ u a v, u.record.status = .CANCELLED ∧ u.Quiet → Transition.anyAction u a →
        migrationSystem.step u a = some v → v.record.status = .CANCELLED ∧ v.Quiet :=
      fun _ _ _ hu _ h => quiet_step h hu
    exact (hreach.invariant hkeep ⟨hstatus, hquiet⟩).1

/-- A commit of `cancel_migration` sets CANCELLED, and the status stays CANCELLED in every
continuation exactly when nothing else could still set it at that commit. -/
theorem cancelled_stays {s' : MigrationSystem} {i : Nat}
    (h : s.step (.cancel i .commit) = some s') :
    s'.record.status = .CANCELLED ∧
    ((∀ t, migrationSystem.Reaches Transition.anyAction s' t → t.record.status = .CANCELLED) ↔
      s.Quiet) := by
  obtain ⟨state, state', -, hnext, he⟩ := stepCancel_iff.mp h
  cases state with
  | revoked record now =>
    have hstatus : s'.record.status = .CANCELLED := by
      subst he
      exact flush_cancelledRecord_status record now s.record
    refine ⟨hstatus, ?_⟩
    rw [stays_cancelled_iff hstatus]
    subst he
    constructor
    · intro hq
      exact ⟨hq.starts, hq.tasks, hq.runs⟩
    · intro hq
      exact ⟨hq.starts, hq.tasks, hq.runs⟩
  | _ => cases hnext

def startedOnce : Migration :=
  { status := .RUNNING, sourceConnection := "src", destinationConnection := "dst",
    startedAt := some 1, celeryTaskId := some "t0" }

/-- A cancel about to commit, its task dropped from the queue by the revoke. -/
def revokedInTime : MigrationSystem where
  record := startedOnce
  starts := [.returned "t0"]
  cancels := [.revoked ⟨startedOnce, rfl⟩ 3]
  tasks := ⟨[("t0", { acked := true, revoked := true })], by decide⟩

theorem cancelled_stays_revokedInTime : ∃ s', revokedInTime.step (.cancel 0 .commit) = some s' ∧
    ∀ t, migrationSystem.Reaches Transition.anyAction s' t → t.record.status = .CANCELLED := by
  have hquiet : revokedInTime.Quiet := by
    constructor
    · intro state hmem
      rw [List.mem_singleton.mp hmem]
      rfl
    · intro taskId entry hentry
      have hmem := (Dict.get?_eq_some_iff _ _ _).mp hentry
      have he : (taskId, entry) = ("t0", { acked := true, revoked := true }) :=
        List.mem_singleton.mp hmem
      rw [(Prod.mk.inj he).2]
    · intro run hmem
      cases hmem
  have hstep : (revokedInTime.step (.cancel 0 .commit)).isSome = true := by decide
  obtain ⟨s', hs'⟩ := Option.isSome_iff_exists.mp hstep
  exact ⟨s', hs', (cancelled_stays hs').2.mpr hquiet⟩

/-- A migration as `create_migration` leaves it. -/
def created : MigrationSystem :=
  { record := { sourceConnection := "src", destinationConnection := "dst", totalTables := 1 } }

/-- One start, committed, and the worker up to the copying of the rows. -/
def startedRun : List Action :=
  [.beginStart, .start 0 .read, .start 0 .check, .start 0 (.enqueue "t0" 1), .start 0 .commit,
    .deliver "t0", .run 0 .read, .run 0 (.commit 2), .run 0 .advance]

def cancelRequest (i now : Nat) : List Action :=
  [.beginCancel, .cancel i .read, .cancel i .check, .cancel i (.revoke now), .cancel i .commit]

/-- The revoke does not reach the worker in time: it finishes and commits COMPLETED. -/
theorem cancelled_overwritten :
    (migrationSystem.run Transition.anyAction created (startedRun ++ cancelRequest 0 3)).map
      (·.record.status) = some .CANCELLED ∧
    (migrationSystem.run Transition.anyAction created (startedRun ++ cancelRequest 0 3 ++
      [.run 0 (.complete ⟨["users"], [], [], 3⟩), .run 0 .read, .run 0 (.commit 4)])).map
      (·.record.status) = some .COMPLETED := by
  decide

end MigrationSystem

end DataBridge
