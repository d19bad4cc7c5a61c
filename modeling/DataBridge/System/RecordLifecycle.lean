import DataBridge.System.ManyMigrations
import DataBridge.System.StoredRequest

namespace DataBridge

/-! ## What a status promises -/

/-- The columns `celery_task_id`, `started_at`, `completed_at` and `error_message`: empty at first and,
once written, never again. -/
inductive Mark where
  | task
  | started
  | completed
  | error

/-- Has the column of the mark been written? -/
def Migration.has (record : Migration) : Mark → Bool
  | .task => record.celeryTaskId.isSome
  | .started => record.startedAt.isSome
  | .completed => record.completedAt.isSome
  | .error => record.errorMessage.isSome

/-- The columns that a record with this status has. -/
def MigrationStatus.marks : MigrationStatus → List Mark
  | .RUNNING => [.started]
  | .COMPLETED => [.started, .completed]
  | .FAILED => [.completed, .error]
  | .CANCELLED => [.started, .completed]
  | _ => []

/-- The statuses that a session writes. -/
def MigrationStatus.Written (status : MigrationStatus) : Prop :=
  status ∈ [.RUNNING, .COMPLETED, .FAILED, .CANCELLED]

/-- A pending record is as it was created, and any other has what its status promises. -/
structure Migration.Lifecycle (record : Migration) : Prop where
  used : record.status = .PENDING ∨ record.status.Written
  pending : record.status = .PENDING → record.fresh = record
  marks : ∀ mark ∈ record.status.marks, record.has mark = true

/-- What the record has at one time, and still has at a later one. -/
structure Migration.Precedes (before after : Migration) : Prop where
  config : after.config = before.config
  planned : after.totalTables = before.totalTables ∧ after.totalRows = before.totalRows
  left : before.status ≠ .PENDING → after.status ≠ .PENDING
  marks : ∀ mark, before.has mark = true → after.has mark = true

theorem Migration.Precedes.refl (record : Migration) : record.Precedes record :=
  ⟨rfl, ⟨rfl, rfl⟩, id, fun _ => id⟩

theorem Migration.Precedes.trans {r₁ r₂ r₃ : Migration} (h : r₁.Precedes r₂) (h' : r₂.Precedes r₃) :
    r₁.Precedes r₃ where
  config := h'.config.trans h.config
  planned := ⟨h'.planned.1.trans h.planned.1, h'.planned.2.trans h.planned.2⟩
  left hleft := h'.left (h.left hleft)
  marks mark hmark := h'.marks mark (h.marks mark hmark)

theorem Migration.lifecycle_fresh {record : Migration} (h : record.fresh = record) :
    record.Lifecycle := by
  have hstatus : record.status = .PENDING := by
    rw [← h]
    rfl
  refine ⟨Or.inl hstatus, fun _ => h, ?_⟩
  rw [hstatus]
  intro mark hmark
  cases hmark

/-- A record that was started is not pending. -/
theorem Migration.Lifecycle.not_pending {record : Migration} (h : record.Lifecycle)
    (hstarted : record.has .started = true) : record.status ≠ .PENDING := by
  intro hpending
  rw [← h.pending hpending] at hstarted
  cases hstarted

/-! ## What one session changes -/

/-- A session leaves the configuration and the planned totals, writes no PENDING and empties none of
the marked columns. -/
structure Migration.Changes (loaded changed : Migration) : Prop where
  config : changed.config = loaded.config
  planned : changed.totalTables = loaded.totalTables ∧ changed.totalRows = loaded.totalRows
  status : changed.status = loaded.status ∨ changed.status.Written
  task : changed.celeryTaskId = loaded.celeryTaskId ∨ changed.has .task = true
  started : changed.startedAt = loaded.startedAt ∨ changed.has .started = true
  completed : changed.completedAt = loaded.completedAt ∨ changed.has .completed = true
  error : changed.errorMessage = loaded.errorMessage ∨ changed.has .error = true

theorem changes_started (record : Migration) (taskId : String) (now : Nat) :
    record.Changes (startedRecord record taskId now) :=
  ⟨rfl, ⟨rfl, rfl⟩, Or.inr (by simp [startedRecord, MigrationStatus.Written]), Or.inr rfl,
    Or.inr rfl, Or.inl rfl, Or.inl rfl⟩

theorem changes_cancelled (record : Migration) (now : Nat) :
    record.Changes (cancelledRecord record now) :=
  ⟨rfl, ⟨rfl, rfl⟩, Or.inr (by simp [cancelledRecord, MigrationStatus.Written]), Or.inl rfl,
    Or.inl rfl, Or.inr rfl, Or.inl rfl⟩

theorem Session.changes (op : Session) (record : Migration) (now : Nat) :
    record.Changes (op.change record now) := by
  cases op with
  | mark => exact ⟨rfl, ⟨rfl, rfl⟩, Or.inr (by simp [change, runningRecord, MigrationStatus.Written]),
      Or.inl rfl, Or.inr rfl, Or.inl rfl, Or.inl rfl⟩
  | progress tableName total => exact ⟨rfl, ⟨rfl, rfl⟩, Or.inl rfl, Or.inl rfl, Or.inl rfl,
      Or.inl rfl, Or.inl rfl⟩
  | finalise result =>
    by_cases hfailed : result.failedTables = []
    · exact ⟨rfl, ⟨rfl, rfl⟩,
        Or.inr (by simp [change, finalRecord, MigrationStatus.Written, hfailed]), Or.inl rfl,
        Or.inl rfl, Or.inr rfl, Or.inl (if_pos hfailed)⟩
    · exact ⟨rfl, ⟨rfl, rfl⟩,
        Or.inr (by simp [change, finalRecord, MigrationStatus.Written, hfailed]), Or.inl rfl,
        Or.inl rfl, Or.inr rfl,
        Or.inr (by simp [change, finalRecord, Migration.has, hfailed])⟩
  | handler error => exact ⟨rfl, ⟨rfl, rfl⟩,
      Or.inr (by simp [change, failedRecord, MigrationStatus.Written]), Or.inl rfl, Or.inl rfl,
      Or.inr rfl, Or.inr rfl⟩
  | onFailure error => exact ⟨rfl, ⟨rfl, rfl⟩,
      Or.inr (by simp [change, failedRecord, MigrationStatus.Written]), Or.inl rfl, Or.inl rfl,
      Or.inr rfl, Or.inr rfl⟩

section flush

variable {loaded changed committed : Migration}

/-- A commit does not empty a column, whatever its session had loaded. -/
theorem isSome_flushColumn {α : Type} [DecidableEq α] {loaded changed committed : Option α}
    (hchange : changed = loaded ∨ changed.isSome = true) (h : committed.isSome = true) :
    (flushColumn loaded changed committed).isSome = true := by
  unfold flushColumn
  split
  · exact h
  · rename_i hne
    exact hchange.resolve_left hne

/-- What the session has in a column is there after its commit: if it does not write the column,
then it had loaded it, and it was not emptied since. -/
theorem isSome_flushColumn_changed {α : Type} [DecidableEq α] {loaded changed committed : Option α}
    (hload : loaded.isSome = true → committed.isSome = true) (h : changed.isSome = true) :
    (flushColumn loaded changed committed).isSome = true := by
  unfold flushColumn
  split
  · rename_i heq
    exact hload (heq ▸ h)
  · exact h

theorem Migration.Changes.kept (h : loaded.Changes changed) {mark : Mark}
    (hmark : committed.has mark = true) : (loaded.flush changed committed).has mark = true := by
  cases mark with
  | task => exact isSome_flushColumn h.task hmark
  | started => exact isSome_flushColumn h.started hmark
  | completed => exact isSome_flushColumn h.completed hmark
  | error => exact isSome_flushColumn h.error hmark

theorem Migration.Precedes.written (h : loaded.Precedes committed) {mark : Mark}
    (hmark : changed.has mark = true) : (loaded.flush changed committed).has mark = true := by
  cases mark with
  | task => exact isSome_flushColumn_changed (h.marks .task) hmark
  | started => exact isSome_flushColumn_changed (h.marks .started) hmark
  | completed => exact isSome_flushColumn_changed (h.marks .completed) hmark
  | error => exact isSome_flushColumn_changed (h.marks .error) hmark

theorem MigrationStatus.Written.not_pending {status : MigrationStatus} (h : status.Written) :
    status ≠ .PENDING := by
  rintro rfl
  simp [Written] at h

theorem Migration.Changes.precedes (h : loaded.Changes changed) (committed : Migration) :
    committed.Precedes (loaded.flush changed committed) where
  config := flush_config committed h.config
  planned := ⟨if_pos h.planned.1, if_pos h.planned.2⟩
  left hleft := by
    by_cases hsame : changed.status = loaded.status
    · rw [flush_status_kept committed hsame]
      exact hleft
    · rw [flush_status_written committed hsame]
      exact (h.status.resolve_left hsame).not_pending
  marks _ hmark := h.kept hmark

/-- A commit of a session that loaded an earlier row keeps what the statuses promise, if the session
has the columns of the status it sets or finds them in the row. -/
theorem Migration.Lifecycle.flush (hrow : committed.Lifecycle) (hload : loaded.Precedes committed)
    (h : loaded.Changes changed)
    (hleft : changed.status = loaded.status → committed.status ≠ .PENDING)
    (hmarks : changed.status ≠ loaded.status → ∀ mark ∈ changed.status.marks,
      changed.has mark = true ∨ committed.has mark = true) :
    (loaded.flush changed committed).Lifecycle := by
  by_cases hsame : changed.status = loaded.status
  · have hstatus := flush_status_kept committed hsame
    refine ⟨?_, ?_, ?_⟩
    · rw [hstatus]
      exact hrow.used
    · intro hpending
      exact absurd (hstatus ▸ hpending) (hleft hsame)
    · rw [hstatus]
      intro mark hmark
      exact h.kept (hrow.marks mark hmark)
  · have hstatus := flush_status_written committed hsame
    have hwritten := h.status.resolve_left hsame
    refine ⟨?_, ?_, ?_⟩
    · rw [hstatus]
      exact Or.inr hwritten
    · intro hpending
      exact absurd (hstatus ▸ hpending) hwritten.not_pending
    · rw [hstatus]
      intro mark hmark
      rcases hmarks hsame mark hmark with hown | hfound
      · exact hload.written hown
      · exact h.kept hfound

end flush

/-! ## What a party has loaded -/

def StartState.loaded? : StartState → Option Migration
  | .loaded record => some record
  | .checked record => some record.1
  | .enqueued record _ _ => some record.1
  | _ => none

def CancelState.loaded? : CancelState → Option Migration
  | .loaded record => some record
  | .checked record => some record.1
  | .revoked record _ => some record.1
  | _ => none

def RequestKind.loaded? : (k : RequestKind) → k.State → Option Migration
  | .start => StartState.loaded?
  | .cancel => CancelState.loaded?

def RunState.loaded? : RunState → Option Migration
  | .session _ record => some record
  | _ => none

/-- The run has marked the record RUNNING, and nothing has gone wrong since. -/
def RunState.marking : RunState → Bool
  | .marked => true
  | .running => true
  | .session (.progress _ _) _ => true
  | .completed _ => true
  | .session (.finalise _) _ => true
  | .finalised => true
  | _ => false

section next

variable {committed record : Migration}

/-- A step of a request reads the row, or goes on with what was loaded before. -/
theorem RequestKind.next_loaded {k : RequestKind} {state state' : k.State} {a : k.Step}
    (h : k.next committed state a = some state') (hload : k.loaded? state' = some record) :
    record = committed ∨ k.loaded? state = some record := by
  cases k <;> cases state <;> cases a <;>
    simp only [next, StartState.next, CancelState.next, Option.some.injEq, reduceCtorEq] at h
  case start.begun.read | cancel.begun.read =>
    subst h
    exact Or.inl (Option.some.inj hload).symm
  case start.loaded.check old | cancel.loaded.check old =>
    split at h
    · rename_i passed hcheck
      simp only [checkStart, checkCancel] at hcheck
      split at hcheck
      · cases hcheck
        cases h
        exact Or.inr hload
      · cases hcheck
    · cases h
      cases hload
  case start.checked.enqueue | cancel.checked.revoke =>
    subst h
    exact Or.inr hload
  all_goals (subst h; cases hload)

theorem RunState.next_loaded {state state' : RunState} {a : RunAction}
    (h : state.next committed a = some state') (hload : state'.loaded? = some record) :
    record = committed ∨ state.loaded? = some record := by
  cases state with
  | session op old =>
    cases a with
    | commit now => cases h; cases op <;> cases hload
    | raise error => cases h; cases op <;> cases hload
    | swallow =>
      cases op <;> cases h
      cases hload
    | die acked => cases h; cases hload
    | _ => cases h
  | _ => cases a <;> cases h <;> cases hload <;> exact Or.inl rfl

/-- A run gets past its mark by the commit of the mark. -/
theorem RunState.next_marking {state state' : RunState} {a : RunAction}
    (h : state.next committed a = some state') (hmark : state'.marking = true) :
    state.marking = true ∨ ∃ old now, state = .session .mark old ∧ a = .commit now := by
  cases state with
  | session op old =>
    cases a with
    | commit now =>
      cases h
      cases op with
      | mark => exact Or.inr ⟨old, now, rfl, rfl⟩
      | progress => exact Or.inl rfl
      | finalise => exact Or.inl rfl
      | _ => cases hmark
    | raise error => cases h; cases op <;> cases hmark
    | swallow =>
      cases op <;> cases h
      exact Or.inl rfl
    | die acked => cases h; cases hmark
    | _ => cases h
  | _ =>
    cases a <;> cases h
    all_goals first | exact Or.inl rfl | cases hmark

end next

/-! ## The record of one migration -/

namespace MigrationSystem

variable {s t : MigrationSystem}

/-- The row keeps its promises, and whatever a party has loaded was the row once. -/
structure Recorded (s : MigrationSystem) : Prop where
  lifecycle : s.record.Lifecycle
  requests : ∀ k, ∀ state ∈ s.calls k, ∀ record, k.loaded? state = some record →
    record.Precedes s.record ∧ record.Lifecycle
  runs : ∀ run ∈ s.runs, (∀ record, run.state.loaded? = some record → record.Precedes s.record) ∧
    (run.state.marking = true → s.record.has .started = true)

/-- A state in which the parties have loaded nothing else, and the row is a later one. -/
theorem Recorded.later (h : s.Recorded) (hrow : t.record.Lifecycle)
    (hlater : s.record.Precedes t.record) (hcalls : ∀ k, t.calls k ⊆ s.calls k)
    (hruns : t.runs ⊆ s.runs) : t.Recorded where
  lifecycle := hrow
  requests k state hmem record hload :=
    have hold := h.requests k state (hcalls k hmem) record hload
    ⟨hold.1.trans hlater, hold.2⟩
  runs run hmem :=
    have hold := h.runs run (hruns hmem)
    ⟨fun record hload => (hold.1 record hload).trans hlater,
      fun hmark => hlater.marks .started (hold.2 hmark)⟩

theorem recorded_fresh {record : Migration} (h : record.fresh = record) :
    ({ record } : MigrationSystem).Recorded :=
  ⟨Migration.lifecycle_fresh h, fun k _ hmem => (by cases k <;> cases hmem),
    fun _ hmem => (by cases hmem)⟩

/-- The row after a step of a start request. -/
theorem Recorded.row_start (h : s.Recorded) {state : StartState} (hmem : state ∈ s.starts)
    (a : StartAction) :
    (state.row s.record a).Lifecycle ∧ s.record.Precedes (state.row s.record a) := by
  cases state with
  | enqueued record taskId now =>
    cases a with
    | commit =>
      obtain ⟨hload, -⟩ := h.requests .start _ hmem record.1 rfl
      have hchange := changes_started record.1 taskId now
      refine ⟨h.lifecycle.flush hload hchange ?_ ?_, hchange.precedes s.record⟩
      · intro hsame
        apply hload.left
        rw [← hsame]
        simp [startedRecord]
      · intro _ mark hmark
        simp only [startedRecord, MigrationStatus.marks, List.mem_singleton] at hmark
        subst hmark
        exact Or.inl rfl
    | _ => exact ⟨h.lifecycle, .refl _⟩
  | _ => exact ⟨h.lifecycle, .refl _⟩

/-- The row after a step of a cancel request. Its record was running, so it was started. -/
theorem Recorded.row_cancel (h : s.Recorded) {state : CancelState} (hmem : state ∈ s.cancels)
    (a : CancelAction) :
    (state.row s.record a).Lifecycle ∧ s.record.Precedes (state.row s.record a) := by
  cases state with
  | revoked record now =>
    cases a with
    | commit =>
      obtain ⟨hload, hlife⟩ := h.requests .cancel _ hmem record.1 rfl
      have hchange := changes_cancelled record.1 now
      refine ⟨h.lifecycle.flush hload hchange ?_ ?_, hchange.precedes s.record⟩
      · intro hsame
        rw [record.2] at hsame
        cases hsame
      · intro _ mark hmark
        have hstarted : record.1.has .started = true := by
          apply hlife.marks
          rw [record.2]
          exact List.mem_singleton_self _
        simp only [cancelledRecord, MigrationStatus.marks, List.mem_cons, List.not_mem_nil,
          or_false] at hmark
        rcases hmark with rfl | rfl
        · exact Or.inr (hload.marks .started hstarted)
        · exact Or.inl rfl
    | _ => exact ⟨h.lifecycle, .refl _⟩
  | _ => exact ⟨h.lifecycle, .refl _⟩

theorem Recorded.row_request (h : s.Recorded) {k : RequestKind} {state : k.State}
    (hmem : state ∈ s.calls k) (a : k.Step) :
    (k.row s.record state a).Lifecycle ∧ s.record.Precedes (k.row s.record state a) := by
  cases k with
  | start => exact h.row_start hmem a
  | cancel => exact h.row_cancel hmem a

/-- The row after a step of a run. -/
theorem Recorded.row_run (h : s.Recorded) {run : Run} (hmem : run ∈ s.runs) (a : RunAction) :
    (run.state.row s.record a).Lifecycle ∧ s.record.Precedes (run.state.row s.record a) := by
  obtain ⟨hloaded, hmarked⟩ := h.runs run hmem
  cases hstate : run.state with
  | session op record =>
    rw [hstate] at hloaded hmarked
    cases a with
    | commit now =>
      have hload := hloaded record rfl
      have hchange := op.changes record now
      refine ⟨h.lifecycle.flush hload hchange ?_ ?_, hchange.precedes s.record⟩
      · intro hsame
        cases op with
        | progress tableName total => exact h.lifecycle.not_pending (hmarked rfl)
        | finalise result => exact h.lifecycle.not_pending (hmarked rfl)
        | _ =>
          apply hload.left
          rw [← hsame]
          simp [Session.change, runningRecord, failedRecord]
      · intro hdiff mark hmark
        cases op with
        | mark =>
          simp only [Session.change, runningRecord, MigrationStatus.marks,
            List.mem_singleton] at hmark
          subst hmark
          exact Or.inl rfl
        | progress tableName total => exact absurd rfl hdiff
        | finalise result =>
          have hstarted := hmarked rfl
          by_cases hfailed : result.failedTables = []
          · simp only [Session.change, finalRecord, hfailed, if_true, MigrationStatus.marks,
              List.mem_cons, List.not_mem_nil, or_false] at hmark
            rcases hmark with rfl | rfl
            · exact Or.inr hstarted
            · exact Or.inl rfl
          · simp only [Session.change, finalRecord, hfailed, if_false, MigrationStatus.marks,
              List.mem_cons, List.not_mem_nil, or_false] at hmark
            rcases hmark with rfl | rfl
            · exact Or.inl rfl
            · exact Or.inl (by simp [Session.change, finalRecord, Migration.has, hfailed])
        | _ =>
          simp only [Session.change, failedRecord, MigrationStatus.marks, List.mem_cons,
            List.not_mem_nil, or_false] at hmark
          rcases hmark with rfl | rfl <;> exact Or.inl rfl
    | _ => exact ⟨h.lifecycle, .refl _⟩
  | _ => exact ⟨h.lifecycle, .refl _⟩

/-- A run that gets past its mark has put the start time into the row. -/
theorem Recorded.marked (h : s.Recorded) {run : Run} (hmem : run ∈ s.runs) {a : RunAction}
    {state : RunState} (hnext : run.state.next s.record a = some state)
    (hmark : state.marking = true) : (run.state.row s.record a).has .started = true := by
  rcases RunState.next_marking hnext hmark with hbefore | ⟨record, now, hstate, rfl⟩
  · exact (h.row_run hmem a).2.marks .started ((h.runs run hmem).2 hbefore)
  · have hload := (h.runs run hmem).1 record (by rw [hstate]; rfl)
    rw [hstate]
    exact hload.written rfl

/-- A new call has loaded nothing. -/
theorem Recorded.arrival (h : s.Recorded) (k : RequestKind) :
    (s.withCalls s.record s.tasks k (s.calls k ++ [k.begun])).Recorded where
  lifecycle := by
    rw [withCalls_record]
    exact h.lifecycle
  requests := by
    rw [withCalls_record]
    refine forall_calls_withCalls (P := fun k' states => ∀ state ∈ states, ∀ record,
      k'.loaded? state = some record → record.Precedes s.record ∧ record.Lifecycle) ?_ h.requests
    intro state hmem record hload
    rcases List.mem_append.mp hmem with hold | hnew
    · exact h.requests k state hold record hload
    · rw [List.mem_singleton.mp hnew] at hload
      cases k <;> cases hload
  runs := by
    rw [withCalls_record, withCalls_runs]
    exact h.runs

theorem Recorded.request (h : s.Recorded) {k : RequestKind} {i : Nat} {a : k.Step}
    (hstep : s.step (k.action i a) = some t) : t.Recorded ∧ s.record.Precedes t.record := by
  obtain ⟨state, state', tasks, hi, hnext, -, rfl⟩ := (step_action_iff k).mp hstep
  have hmem : state ∈ s.calls k := List.mem_of_getElem? hi
  obtain ⟨hrow, hlater⟩ := h.row_request hmem a
  have hrest := h.later (t := { s with record := k.row s.record state a }) hrow hlater
    (fun _ => List.Subset.refl _) (List.Subset.refl _)
  rw [withCalls_record]
  refine ⟨⟨?_, ?_, ?_⟩, hlater⟩
  · rw [withCalls_record]
    exact hrow
  · rw [withCalls_record]
    refine forall_calls_withCalls (P := fun k' states => ∀ other ∈ states, ∀ record,
      k'.loaded? other = some record →
        record.Precedes (k.row s.record state a) ∧ record.Lifecycle) ?_ hrest.requests
    intro other hother record hload
    rcases List.mem_or_eq_of_mem_set hother with hold | rfl
    · exact hrest.requests k other hold record hload
    · rcases RequestKind.next_loaded hnext hload with rfl | hbefore
      · exact ⟨hlater, h.lifecycle⟩
      · exact hrest.requests k state hmem record hbefore
  · rw [withCalls_record, withCalls_runs]
    exact hrest.runs

theorem Recorded.stepRun (h : s.Recorded) {i : Nat} {a : RunAction}
    (hstep : s.stepRun i a = some t) : t.Recorded ∧ s.record.Precedes t.record := by
  obtain ⟨run, state, hi, hnext, rfl⟩ := stepRun_iff.mp hstep
  have hmem : run ∈ s.runs := List.mem_of_getElem? hi
  obtain ⟨hrow, hlater⟩ := h.row_run hmem a
  have hrest := h.later (t := { s with record := run.state.row s.record a }) hrow hlater
    (fun _ => List.Subset.refl _) (List.Subset.refl _)
  refine ⟨⟨hrow, hrest.requests, ?_⟩, hlater⟩
  intro other hother
  rcases List.mem_or_eq_of_mem_set hother with hold | rfl
  · exact hrest.runs other hold
  · refine ⟨?_, h.marked hmem hnext⟩
    intro record hload
    rcases RunState.next_loaded hnext hload with rfl | hbefore
    · exact hlater
    · exact (hrest.runs run hmem).1 record hbefore

/-- Every step keeps the promises of the row, and what the row had. -/
theorem Recorded.step (h : s.Recorded) {a : Action} (hstep : s.step a = some t) :
    t.Recorded ∧ s.record.Precedes t.record := by
  cases a with
  | beginStart =>
    cases hstep
    exact ⟨h.arrival .start, .refl _⟩
  | start i a => exact h.request (k := .start) hstep
  | beginCancel =>
    cases hstep
    exact ⟨h.arrival .cancel, .refl _⟩
  | cancel i a => exact h.request (k := .cancel) hstep
  | deliver taskId =>
    obtain ⟨_, -, -, rfl⟩ := deliver_iff.mp hstep
    refine ⟨⟨h.lifecycle, h.requests, ?_⟩, .refl _⟩
    intro run hmem
    rcases List.mem_append.mp hmem with hold | hnew
    · exact h.runs run hold
    · rw [List.mem_singleton.mp hnew]
      exact ⟨fun _ hload => (by cases hload), fun hmark => (by cases hmark)⟩
  | discard taskId =>
    obtain ⟨_, -, -, rfl⟩ := discard_iff.mp hstep
    exact ⟨⟨h.lifecycle, h.requests, h.runs⟩, .refl _⟩
  | terminate i =>
    obtain ⟨run, -, -, rfl⟩ := terminate_spec hstep
    refine ⟨⟨h.lifecycle, h.requests, ?_⟩, .refl _⟩
    intro other hmem
    rcases List.mem_or_eq_of_mem_set hmem with hold | rfl
    · exact h.runs other hold
    · exact ⟨fun _ hload => (by cases hload), fun hmark => (by cases hmark)⟩
  | run i a => exact h.stepRun hstep

theorem Recorded.reaches {ok : MigrationSystem → Action → Prop} (h : s.Recorded)
    (hreach : migrationSystem.Reaches ok s t) : t.Recorded ∧ s.record.Precedes t.record := by
  refine hreach.invariant (I := fun t => t.Recorded ∧ s.record.Precedes t.record) ?_
    ⟨h, .refl _⟩
  rintro u a v ⟨hu, hbefore⟩ - hstep
  obtain ⟨hv, hlater⟩ := hu.step hstep
  exact ⟨hv, hbefore.trans hlater⟩

end MigrationSystem

/-! ## The records of the application -/

namespace ApplicationSystem

variable {s t : ApplicationSystem}

/-- In any interleaving over all migrations, a row that is there stays: later it has the same
configuration and planned totals, each of `celery_task_id`, `started_at`, `completed_at` and
`error_message` that it had, it is not pending again, and its status promises none of these that it
lacks. -/
theorem rows_lifecycle (h : system.Reaches Transition.anyAction {} s)
    (h' : system.Reaches Transition.anyAction s t) {migrationId : String} {record : Migration}
    (hrow : s.migrations.get? migrationId = some record) :
    ∃ later, t.migrations.get? migrationId = some later ∧ record.Precedes later ∧
      later.Lifecycle := by
  have hs := independent_of_reaches h
  have hp := project_eq hrow
  obtain ⟨first, hfresh, hfirst⟩ := hs.alone migrationId _ hp
  obtain ⟨m, hm, hreach⟩ := project_reaches hs h' hp
  have hnow := ((MigrationSystem.recorded_fresh hfresh).reaches hfirst).1
  obtain ⟨hlast, hlater⟩ := hnow.reaches hreach
  obtain ⟨later, hget, rfl⟩ := Option.map_eq_some_iff.mp hm
  exact ⟨later, hget, hlater, hlast.lifecycle⟩

private def requestedRecord : Migration :=
  createdRecord "source" "destination" (some "tables") (some "settings") 1 3

private def untilLoaded : List ApplicationAction :=
  [.create "m" requestedRecord, .create "n" requestedRecord, .beginStart "m", .start 0 .read,
    .start 0 .check, .start 0 (.enqueue "t0" 1), .deliver "t0", .run 0 .read,
    .run 0 (.raise "no connection")]

/-- The worker has failed the migration before the start commits. -/
private def failedFirst : List ApplicationAction :=
  [.run 0 .read, .run 0 (.commit 2), .start 0 .commit, .beginCancel "m", .cancel 0 .read,
    .cancel 0 .check, .cancel 0 (.revoke 3), .cancel 0 .commit]

theorem rows_lifecycle_failedFirst : ∃ s t, system.Reaches Transition.anyAction {} s ∧
    system.Reaches Transition.anyAction s t ∧ s.migrations.get? "m" = some requestedRecord ∧
    ∃ later, t.migrations.get? "m" = some later ∧ later.status = .CANCELLED ∧
      requestedRecord.Precedes later ∧ later.Lifecycle := by
  have hrun : ∃ s t, system.run Transition.anyAction {} untilLoaded = some s ∧
      system.run Transition.anyAction s failedFirst = some t ∧
      s.migrations.get? "m" = some requestedRecord ∧
      (t.migrations.get? "m").map (·.status) = some .CANCELLED :=
    ⟨_, _, rfl, rfl, by decide, by decide⟩
  obtain ⟨s, t, hs, ht, hrow, hstatus⟩ := hrun
  have hbefore := Transition.reaches_of_run hs
  have hafter := Transition.reaches_of_run ht
  obtain ⟨later, hlater, hprecedes, hlifecycle⟩ := rows_lifecycle hbefore hafter hrow
  refine ⟨s, t, hbefore, hafter, hrow, later, hlater, ?_, hprecedes, hlifecycle⟩
  rw [hlater] at hstatus
  exact Option.some.inj hstatus

end ApplicationSystem

end DataBridge
