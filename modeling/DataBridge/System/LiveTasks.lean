import DataBridge.System.Cancellation

namespace DataBridge

/-- The request has read a status it may start from and has not enqueued its task yet. -/
def StartState.willEnqueue : StartState → Bool
  | .loaded record => record.status.startable
  | .checked _ => true
  | _ => false

def Action.readsForStart : Action → Bool
  | .start _ .read => true
  | _ => false

theorem StartState.willEnqueue_of_next {committed : Migration} {state state' : StartState}
    {a : StartAction} (h : state.next committed a = some state')
    (hwill : state'.willEnqueue = true) :
    state.willEnqueue = true ∨ a = .read ∧ committed.status.startable = true := by
  cases state with
  | begun =>
    cases a with
    | read => cases h; exact Or.inr ⟨rfl, hwill⟩
    | fail exc => cases h; cases hwill
    | _ => cases h
  | loaded record =>
    cases a with
    | check =>
      by_cases hstartable : record.status.startable = true
      · exact Or.inl hstartable
      · rw [StartState.next, checkStart, dif_neg hstartable] at h
        cases h
        cases hwill
    | fail exc => cases h; cases hwill
    | _ => cases h
  | checked record => exact Or.inl rfl
  | enqueued record taskId now =>
    cases a with
    | commit => cases h; cases hwill
    | fail exc => cases h; cases hwill
    | _ => cases h
  | returned taskId => cases a <;> cases h
  | raised exc => cases a <;> cases h

namespace MigrationSystem

/-- Enqueued or running, and not revoked. -/
def isLive (s : MigrationSystem) (taskId : String) (entry : TaskEntry) : Bool :=
  !entry.revoked &&
    (!entry.acked || s.runs.any fun run => run.taskId = taskId && run.state.active)

def liveTasks (s : MigrationSystem) : List String :=
  (s.tasks.entries.filter fun e => s.isLive e.1 e.2).map Prod.fst

/-- No task is live and no request is about to enqueue one. -/
def Idle (s : MigrationSystem) : Prop :=
  s.liveTasks = [] ∧ ∀ state ∈ s.starts, state.willEnqueue = false

/-- A start reads a status it may start from only while the migration is idle. -/
def Orderly (s : MigrationSystem) (a : Action) : Prop :=
  a.readsForStart = true → s.record.status.startable = true → s.Idle

instance (s : MigrationSystem) : Decidable s.Idle := inferInstanceAs (Decidable (_ ∧ _))

instance (s : MigrationSystem) (a : Action) : Decidable (s.Orderly a) :=
  inferInstanceAs (Decidable (_ → _ → _))

variable {s t : MigrationSystem}

theorem mem_liveTasks {taskId : String} : taskId ∈ s.liveTasks ↔
    ∃ entry, s.taskEntry taskId = some entry ∧ s.isLive taskId entry = true := by
  constructor
  · intro h
    obtain ⟨e, he, hid⟩ := List.mem_map.mp h
    obtain ⟨hmem, hlive⟩ := List.mem_filter.mp he
    subst hid
    exact ⟨e.2, (Dict.get?_eq_some_iff _ _ _).mpr hmem, hlive⟩
  · intro h
    obtain ⟨entry, hentry, hlive⟩ := h
    have hmem := (Dict.get?_eq_some_iff _ _ _).mp hentry
    exact List.mem_map.mpr ⟨(taskId, entry), List.mem_filter.mpr ⟨hmem, hlive⟩, rfl⟩

theorem isLive_iff {taskId : String} {entry : TaskEntry} : s.isLive taskId entry = true ↔
    entry.revoked = false ∧
      (entry.acked = false ∨ ∃ run ∈ s.runs, run.taskId = taskId ∧ run.state.active = true) := by
  simp [isLive]

theorem nodup_liveTasks (s : MigrationSystem) : s.liveTasks.Nodup :=
  s.tasks.nodup.sublist (List.filter_sublist.map Prod.fst)

/-- Every entry of `tasks` has the flags of the entry it comes from, or more. -/
def EntriesFrom (s : MigrationSystem) (tasks : Broker) : Prop :=
  ∀ id entry', tasks.get? id = some entry' → ∃ entry, s.taskEntry id = some entry ∧
    (entry'.revoked = false → entry.revoked = false) ∧
    (entry'.acked = false → entry.acked = false)

/-- Every active run of `runs` is of a task with an active run or with a message in the queue. -/
def RunsFrom (s : MigrationSystem) (runs : List Run) : Prop :=
  ∀ run ∈ runs, run.state.active = true →
    (∃ old ∈ s.runs, old.taskId = run.taskId ∧ old.state.active = true) ∨
    ∃ entry, s.taskEntry run.taskId = some entry ∧ entry.acked = false

theorem liveTasks_shrink (hentry : s.EntriesFrom t.tasks) (hruns : s.RunsFrom t.runs) :
    ∀ id ∈ t.liveTasks, id ∈ s.liveTasks := by
  intro id h
  obtain ⟨entry', hentry', hlive⟩ := mem_liveTasks.mp h
  obtain ⟨hrevoked, hgoing⟩ := isLive_iff.mp hlive
  obtain ⟨entry, he, hkeepRevoked, hkeepAcked⟩ := hentry id entry' hentry'
  refine mem_liveTasks.mpr ⟨entry, he, isLive_iff.mpr ⟨hkeepRevoked hrevoked, ?_⟩⟩
  rcases hgoing with hacked | hrun
  · exact Or.inl (hkeepAcked hacked)
  · obtain ⟨run, hmem, hid, hactive⟩ := hrun
    rcases hruns run hmem hactive with hold | hqueued
    · obtain ⟨old, hold, holdId, holdActive⟩ := hold
      exact Or.inr ⟨old, hold, holdId.trans hid, holdActive⟩
    · obtain ⟨queued, hqueued, hacked⟩ := hqueued
      rw [hid, he] at hqueued
      cases hqueued
      exact Or.inl hacked

theorem entriesFrom_self (s : MigrationSystem) : s.EntriesFrom s.tasks :=
  fun _ entry' h => ⟨entry', h, fun h => h, fun h => h⟩

theorem entriesFrom_ack (s : MigrationSystem) (taskId : String) :
    s.EntriesFrom (s.tasks.ack taskId) := by
  intro id entry' h
  rw [Broker.ack_get?] at h
  obtain ⟨entry, hentry, he⟩ := Option.map_eq_some_iff.mp h
  refine ⟨entry, hentry, ?_⟩
  subst he
  by_cases hid : id = taskId <;> simp [hid]

theorem entriesFrom_revoke (s : MigrationSystem) (taskId : String) :
    s.EntriesFrom (s.tasks.revoke taskId) := by
  intro id entry' h
  rw [Broker.revoke_get?] at h
  obtain ⟨entry, hentry, he⟩ := Option.map_eq_some_iff.mp h
  refine ⟨entry, hentry, ?_⟩
  subst he
  by_cases hid : id = taskId <;> simp [hid]

theorem entriesFrom_revokeFor (s : MigrationSystem) (state : CancelState) (a : CancelAction) :
    s.EntriesFrom (s.tasks.revokeFor state a) := by
  unfold Broker.revokeFor
  split
  · split
    · exact s.entriesFrom_self
    · split
      · exact s.entriesFrom_self
      · exact s.entriesFrom_revoke _
  · exact s.entriesFrom_self

theorem runsFrom_self (s : MigrationSystem) : s.RunsFrom s.runs :=
  fun run hmem hactive => Or.inl ⟨run, hmem, rfl, hactive⟩

/-- A run in the place of an active run of the same task. -/
theorem runsFrom_set {i : Nat} {run run' : Run} (h : s.runs[i]? = some run)
    (hactive : run.state.active = true) (hid : run'.taskId = run.taskId) :
    s.RunsFrom (s.runs.set i run') := by
  intro r hmem hr
  rcases List.mem_or_eq_of_mem_set hmem with hold | hnew
  · exact s.runsFrom_self r hold hr
  · rw [hnew, hid]
    exact Or.inl ⟨run, List.mem_of_getElem? h, rfl, hactive⟩

/-- The only step after which a new task is live is the enqueue of a start. -/
theorem step_shrink {a : Action} (h : s.step a = some t)
    (hnot : ∀ i taskId now, a ≠ .start i (.enqueue taskId now)) :
    ∀ id ∈ t.liveTasks, id ∈ s.liveTasks := by
  cases a with
  | beginStart => cases h; exact fun id hid => hid
  | start i a =>
    obtain ⟨state, state', tasks, -, -, haccept, he⟩ := stepStart_iff.mp h
    have htasks : tasks = s.tasks := by
      cases a with
      | enqueue taskId now => exact absurd rfl (hnot i taskId now)
      | _ => cases haccept; rfl
    subst he htasks
    exact fun id hid => hid
  | beginCancel => cases h; exact fun id hid => hid
  | cancel i a =>
    obtain ⟨state, state', -, -, he⟩ := stepCancel_iff.mp h
    subst he
    exact liveTasks_shrink (s.entriesFrom_revokeFor state a) s.runsFrom_self
  | deliver taskId =>
    obtain ⟨entry, hentry, hacked, he⟩ := deliver_iff.mp h
    have hruns : s.RunsFrom (s.runs ++ [{ taskId := taskId }]) := by
      intro run hmem hactive
      rcases List.mem_append.mp hmem with hold | hnew
      · exact s.runsFrom_self run hold hactive
      · rw [List.mem_singleton.mp hnew]
        exact Or.inr ⟨entry, hentry, hacked⟩
    subst he
    exact liveTasks_shrink s.entriesFrom_self hruns
  | discard taskId =>
    obtain ⟨entry, -, -, he⟩ := discard_iff.mp h
    subst he
    exact liveTasks_shrink (s.entriesFrom_ack taskId) s.runsFrom_self
  | terminate i =>
    obtain ⟨run, hrun, hactive, he⟩ := terminate_spec h
    subst he
    exact liveTasks_shrink (s.entriesFrom_ack run.taskId) (runsFrom_set hrun hactive rfl)
  | run i a =>
    obtain ⟨run, state, hrun, hnext, he⟩ := stepRun_iff.mp h
    have hactive := RunState.active_of_next hnext
    have hentries : ∀ acks : Bool,
        s.EntriesFrom (if acks then s.tasks.ack run.taskId else s.tasks) := by
      intro acks
      cases acks with
      | false => exact s.entriesFrom_self
      | true => exact s.entriesFrom_ack run.taskId
    subst he
    exact liveTasks_shrink (hentries _) (runsFrom_set hrun hactive rfl)

/-- At most one task is live, and while a request is about to enqueue one, none is and no other
request is. -/
structure Exclusive (s : MigrationSystem) : Prop where
  live : ∀ a ∈ s.liveTasks, ∀ b ∈ s.liveTasks, a = b
  alone : ∀ (i : Nat) (state : StartState), s.starts[i]? = some state →
    state.willEnqueue = true → s.liveTasks = [] ∧
      ∀ (j : Nat) (other : StartState), s.starts[j]? = some other →
        other.willEnqueue = true → j = i

theorem nil_of_shrink (hlive : ∀ id ∈ t.liveTasks, id ∈ s.liveTasks) (hnone : s.liveTasks = []) :
    t.liveTasks = [] := by
  apply List.eq_nil_iff_forall_not_mem.mpr
  intro id hid
  have hmem := hlive id hid
  rw [hnone] at hmem
  cases hmem

theorem Exclusive.of_shrink (hs : s.Exclusive) (hlive : ∀ id ∈ t.liveTasks, id ∈ s.liveTasks)
    (hstarts : t.starts = s.starts) : t.Exclusive := by
  constructor
  · intro a ha b hb
    exact hs.live a (hlive a ha) b (hlive b hb)
  · intro i state hi hwill
    rw [hstarts] at hi ⊢
    obtain ⟨hnone, hothers⟩ := hs.alone i state hi hwill
    exact ⟨nil_of_shrink hlive hnone, hothers⟩

theorem getElem?_set_cases {α : Type} {xs : List α} {i j : Nat} {x y : α}
    (h : (xs.set i x)[j]? = some y) : j = i ∧ y = x ∨ j ≠ i ∧ xs[j]? = some y := by
  by_cases hj : j = i
  · subst hj
    rw [List.getElem?_set_self'] at h
    obtain ⟨_, -, he⟩ := Option.map_eq_some_iff.mp h
    exact Or.inl ⟨rfl, he.symm⟩
  · rw [List.getElem?_set_ne (Ne.symm hj)] at h
    exact Or.inr ⟨hj, h⟩

/-- A request that comes to be about to enqueue has read while the migration was idle. -/
theorem Exclusive.of_start {i : Nat} {state state' : StartState} (hs : s.Exclusive)
    (hi : s.starts[i]? = some state) (hlive : ∀ id ∈ t.liveTasks, id ∈ s.liveTasks)
    (hstarts : t.starts = s.starts.set i state')
    (hwill : state'.willEnqueue = true → state.willEnqueue = true ∨ s.Idle) : t.Exclusive := by
  have hempty : s.liveTasks = [] → t.liveTasks = [] := nil_of_shrink hlive
  constructor
  · intro a ha b hb
    exact hs.live a (hlive a ha) b (hlive b hb)
  · intro k other hk hother
    rw [hstarts] at hk
    rcases getElem?_set_cases hk with ⟨heq, hnew⟩ | ⟨hne, hold⟩
    · subst heq hnew
      rcases hwill hother with hbefore | hidle
      · obtain ⟨hnone, hothers⟩ := hs.alone k state hi hbefore
        refine ⟨hempty hnone, ?_⟩
        intro j third hj hthird
        rw [hstarts] at hj
        rcases getElem?_set_cases hj with ⟨heq, -⟩ | ⟨-, hj⟩
        · exact heq
        · exact hothers j third hj hthird
      · refine ⟨hempty hidle.1, ?_⟩
        intro j third hj hthird
        rw [hstarts] at hj
        rcases getElem?_set_cases hj with ⟨heq, -⟩ | ⟨-, hj⟩
        · exact heq
        · have hnot := hidle.2 third (List.mem_of_getElem? hj)
          rw [hthird] at hnot
          cases hnot
    · obtain ⟨hnone, hothers⟩ := hs.alone k other hold hother
      refine ⟨hempty hnone, ?_⟩
      intro j third hj hthird
      rw [hstarts] at hj
      rcases getElem?_set_cases hj with ⟨heq, hnew⟩ | ⟨-, hj⟩
      · subst heq hnew
        rcases hwill hthird with hbefore | hidle
        · exact hothers j state hi hbefore
        · have hnot := hidle.2 other (List.mem_of_getElem? hold)
          rw [hother] at hnot
          cases hnot
      · exact hothers j third hj hthird

/-- The task a request enqueues is the only live one. -/
theorem Exclusive.of_enqueue {i : Nat} {record : Startable} {taskId : String} {now : Nat}
    (hs : s.Exclusive) (hi : s.starts[i]? = some (.checked record))
    (hstarts : t.starts = s.starts.set i (.enqueued record taskId now))
    (htasks : t.tasks = s.tasks.set taskId {}) (hruns : t.runs = s.runs) : t.Exclusive := by
  obtain ⟨hnone, hothers⟩ := hs.alone i _ hi rfl
  have honly : ∀ id ∈ t.liveTasks, id = taskId := by
    intro id hid
    by_contra hne
    obtain ⟨entry, hentry, hlive⟩ := mem_liveTasks.mp hid
    rw [taskEntry, htasks, Dict.get?_set, if_neg hne] at hentry
    rw [isLive, hruns] at hlive
    have hmem := mem_liveTasks.mpr ⟨entry, hentry, hlive⟩
    rw [hnone] at hmem
    cases hmem
  constructor
  · intro a ha b hb
    rw [honly a ha, honly b hb]
  · intro k other hk hother
    rw [hstarts] at hk
    rcases getElem?_set_cases hk with ⟨-, hnew⟩ | ⟨hne, hold⟩
    · subst hnew
      cases hother
    · exact absurd (hothers k other hold hother) hne

theorem exclusive_begin (hs : s.Exclusive) :
    ({ s with starts := s.starts ++ [.begun] } : MigrationSystem).Exclusive := by
  have hold : ∀ (j : Nat) (state : StartState), (s.starts ++ [.begun])[j]? = some state →
      state.willEnqueue = true → s.starts[j]? = some state := by
    intro j state hj hwill
    rw [List.getElem?_append] at hj
    split at hj
    · exact hj
    · have hmem := List.mem_of_getElem? hj
      rw [List.mem_singleton.mp hmem] at hwill
      cases hwill
  constructor
  · exact hs.live
  · intro i state hi hwill
    obtain ⟨hnone, hothers⟩ := hs.alone i state (hold i state hi hwill) hwill
    exact ⟨hnone, fun j other hj hother => hothers j other (hold j other hj hother) hother⟩

theorem exclusive_start {i : Nat} {a : StartAction} (h : s.step (.start i a) = some t)
    (ha : s.Orderly (.start i a)) (hs : s.Exclusive) : t.Exclusive := by
  obtain ⟨state, state', tasks, hi, hnext, haccept, he⟩ := stepStart_iff.mp h
  by_cases henqueue : ∃ taskId now, a = .enqueue taskId now
  · obtain ⟨taskId, now, heq⟩ := henqueue
    subst heq
    have htasks : tasks = s.tasks.set taskId {} := by
      rw [Broker.accept] at haccept
      split at haccept
      · cases haccept
      · exact (Option.some.inj haccept).symm
    cases state with
    | checked record =>
      cases hnext
      subst he
      exact hs.of_enqueue hi rfl htasks rfl
    | _ => cases hnext
  · have hlive := step_shrink h (by
      intro j taskId now heq
      cases heq
      exact henqueue ⟨taskId, now, rfl⟩)
    subst he
    apply hs.of_start hi hlive rfl
    intro hwill
    rcases StartState.willEnqueue_of_next hnext hwill with hbefore | ⟨hread, hstartable⟩
    · exact Or.inl hbefore
    · subst hread
      exact Or.inr (ha rfl hstartable)

theorem exclusive_step {a : Action} (h : s.step a = some t) (ha : s.Orderly a)
    (hs : s.Exclusive) : t.Exclusive := by
  have hother : (∀ i taskId now, a ≠ .start i (.enqueue taskId now)) → t.starts = s.starts →
      t.Exclusive := fun hnot hstarts => hs.of_shrink (step_shrink h hnot) hstarts
  cases a with
  | beginStart => cases h; exact exclusive_begin hs
  | start i a => exact exclusive_start h ha hs
  | beginCancel => cases h; exact hother (by simp) rfl
  | cancel i a =>
    obtain ⟨_, _, _, _, he⟩ := stepCancel_iff.mp h
    exact hother (by simp) (by rw [← he])
  | deliver taskId =>
    obtain ⟨_, _, _, he⟩ := deliver_iff.mp h
    exact hother (by simp) (by rw [← he])
  | discard taskId =>
    obtain ⟨_, _, _, he⟩ := discard_iff.mp h
    exact hother (by simp) (by rw [← he])
  | terminate i =>
    obtain ⟨_, _, _, he⟩ := terminate_spec h
    exact hother (by simp) (by rw [← he])
  | run i a =>
    obtain ⟨_, _, _, _, he⟩ := stepRun_iff.mp h
    exact hother (by simp) (by rw [← he])

/-- While every start reads a startable status of an idle migration only, at most one of its
tasks is live. -/
theorem one_live_task {record : Migration}
    (h : migrationSystem.Reaches Orderly { record } t) : t.liveTasks.length ≤ 1 := by
  have hstart : ({ record } : MigrationSystem).Exclusive := by
    constructor
    · intro a ha
      cases ha
    · intro i state hi
      simp at hi
  have hkeep : ∀ u a v, u.Exclusive → u.Orderly a → migrationSystem.step u a = some v →
      v.Exclusive := fun _ _ _ hu ha hstep => exclusive_step hstep ha hu
  have hend := h.invariant hkeep hstart
  have hnodup := t.nodup_liveTasks
  match hlist : t.liveTasks with
  | [] => simp
  | [a] => simp
  | a :: b :: rest =>
    have heq := hend.live a (by simp [hlist]) b (by simp [hlist])
    rw [hlist, heq] at hnodup
    simp at hnodup

/-- Two sequential starts, the second one after the first task has failed and ended. -/
def orderlyRestart : List Action :=
  startedRun ++ [.run 0 (.raise "lost"), .run 0 .read, .run 0 (.commit 3),
    .run 0 (.raise "lost"), .run 0 .read, .run 0 (.commit 4), .beginStart, .start 1 .read, .start 1 .check,
    .start 1 (.enqueue "t1" 5), .start 1 .commit]

theorem one_live_task_restarted : ∃ t, migrationSystem.Reaches Orderly created t ∧
    t.liveTasks = ["t1"] ∧ t.liveTasks.length ≤ 1 := by
  have hrun : (migrationSystem.run Orderly created orderlyRestart).map
      (fun t => decide (t.liveTasks = ["t1"])) = some true := by decide
  obtain ⟨t, hreach, hlive⟩ := Transition.exists_of_run hrun
  exact ⟨t, hreach, by simpa using hlive, one_live_task hreach⟩

/-- Two starts that overlap, and one whose commit failed after its enqueue followed by another:
each leaves two live tasks. -/
theorem two_live_tasks :
    (migrationSystem.run Transition.anyAction created [.beginStart, .beginStart, .start 0 .read,
      .start 1 .read, .start 0 .check, .start 1 .check, .start 0 (.enqueue "t0" 1),
      .start 1 (.enqueue "t1" 1)]).map liveTasks = some ["t0", "t1"] ∧
    (migrationSystem.run Transition.anyAction created [.beginStart, .start 0 .read,
      .start 0 .check, .start 0 (.enqueue "t0" 1), .start 0 (.fail ⟨.other, "commit"⟩),
      .beginStart, .start 1 .read, .start 1 .check, .start 1 (.enqueue "t1" 2)]).map
      liveTasks = some ["t0", "t1"] := by
  decide

section disorderly

variable {i : Nat}

theorem liveTasks_congr (htasks : t.tasks = s.tasks) (hruns : t.runs = s.runs) :
    t.liveTasks = s.liveTasks := by
  simp only [liveTasks, isLive, htasks, hruns]

theorem enqueue_step {record : Startable} (hi : s.starts[i]? = some (.checked record)) :
    ∃ t taskId, s.step (.start i (.enqueue taskId 0)) = some t ∧
      t.starts = s.starts.set i (.enqueued record taskId 0) ∧
      taskId ∉ s.liveTasks ∧ taskId ∈ t.liveTasks ∧ ∀ id ∈ s.liveTasks, id ∈ t.liveTasks := by
  obtain ⟨taskId, hfresh⟩ := exists_fresh s.tasks
  have hkey : ∀ id ∈ s.liveTasks, id ∈ s.tasks.keys := by
    intro id hid
    obtain ⟨entry, hentry, -⟩ := mem_liveTasks.mp hid
    rw [taskEntry] at hentry
    exact Dict.mem_keys_of_get? hentry
  have haccept : s.tasks.accept (.enqueue taskId 0) = some (s.tasks.set taskId {}) := by
    rw [Broker.accept, if_neg hfresh]
  refine ⟨_, taskId, stepStart_iff.mpr ⟨_, _, _, hi, rfl, haccept, rfl⟩, rfl,
    fun hmem => hfresh (hkey taskId hmem), ?_, ?_⟩
  · refine mem_liveTasks.mpr ⟨{}, ?_, rfl⟩
    rw [taskEntry, Dict.get?_set, if_pos rfl]
  · intro id hid
    obtain ⟨entry, hentry, hlive⟩ := mem_liveTasks.mp hid
    have hne : id ≠ taskId := fun heq => hfresh (heq ▸ hkey id hid)
    refine mem_liveTasks.mpr ⟨entry, ?_, hlive⟩
    rw [taskEntry, Dict.get?_set, if_neg hne]
    exact hentry

/-- A request about to enqueue can do so, and no live task stops being live by it. -/
theorem enqueue_reachable {state : StartState} (hi : s.starts[i]? = some state)
    (hwill : state.willEnqueue = true) : ∃ t state' taskId,
      migrationSystem.Reaches Transition.anyAction s t ∧ t.starts = s.starts.set i state' ∧
      taskId ∉ s.liveTasks ∧ taskId ∈ t.liveTasks ∧ ∀ id ∈ s.liveTasks, id ∈ t.liveTasks := by
  cases state with
  | checked record =>
    obtain ⟨t, taskId, hstep, hstarts, hnew, hin, hkeep⟩ := enqueue_step hi
    exact ⟨t, _, taskId, reaches_step hstep, hstarts, hnew, hin, hkeep⟩
  | loaded record =>
    obtain ⟨u, hcheck, -, hu, htasks, hruns⟩ :=
      exists_stepStart hi (StartState.next_check s.record hwill) rfl
    have hlive := liveTasks_congr htasks hruns
    have hchecked : u.starts[i]? = some (.checked ⟨record, hwill⟩) := by
      rw [hu]
      exact getElem?_set_of_some hi
    obtain ⟨t, taskId, hstep, hstarts, hnew, hin, hkeep⟩ := enqueue_step hchecked
    rw [hu, List.set_set] at hstarts
    rw [hlive] at hnew hkeep
    exact ⟨t, _, taskId, (reaches_step hcheck).trans (reaches_step hstep), hstarts, hnew, hin,
      hkeep⟩
  | _ => cases hwill

theorem two_le_liveTasks {a b : String} (ha : a ∈ t.liveTasks) (hb : b ∈ t.liveTasks)
    (hne : a ≠ b) : 2 ≤ t.liveTasks.length := by
  have hsub : [a, b] ⊆ t.liveTasks := by
    intro id hid
    simp only [List.mem_cons, List.not_mem_nil, or_false] at hid
    rcases hid with heq | heq
    · exact heq ▸ ha
    · exact heq ▸ hb
  have hpair : [a, b].Nodup := by simp [hne]
  exact (hpair.subperm hsub).length_le

/-- A start that reads a startable status of a migration that is not idle can leave it with two
live tasks. -/
theorem disorderly_start (hi : s.starts[i]? = some .begun)
    (hstartable : s.record.status.startable = true) (hnot : ¬ s.Idle) :
    ∃ t, migrationSystem.Reaches Transition.anyAction s t ∧ 2 ≤ t.liveTasks.length := by
  have hnext : StartState.begun.next s.record .read = some (.loaded s.record) := rfl
  obtain ⟨u, hread, -, hu, htasks, hruns⟩ := exists_stepStart hi hnext rfl
  have hlive := liveTasks_congr htasks hruns
  have hloaded : u.starts[i]? = some (.loaded s.record) := by
    rw [hu]
    exact getElem?_set_of_some hi
  by_cases hnone : s.liveTasks = []
  · -- another request is about to enqueue: it goes first
    have hother : ∃ state ∈ s.starts, state.willEnqueue = true := by
      by_contra hno
      apply hnot
      refine ⟨hnone, ?_⟩
      intro state hmem
      by_contra hwill
      exact hno ⟨state, hmem, by simpa using hwill⟩
    obtain ⟨state, hmem, hwill⟩ := hother
    obtain ⟨j, hj⟩ := List.mem_iff_getElem?.mp hmem
    have hne : i ≠ j := by
      intro heq
      rw [← heq, hi] at hj
      cases hj
      cases hwill
    have hju : u.starts[j]? = some state := by
      rw [hu, List.getElem?_set_ne hne]
      exact hj
    obtain ⟨v, state', a, hfirst, hv, -, ha, -⟩ := enqueue_reachable hju hwill
    have hiv : v.starts[i]? = some (.loaded s.record) := by
      rw [hv, List.getElem?_set_ne hne.symm]
      exact hloaded
    obtain ⟨t, -, b, hsecond, -, hb, hin, hkeep⟩ := enqueue_reachable hiv hstartable
    refine ⟨t, (reaches_step hread).trans (hfirst.trans hsecond), ?_⟩
    exact two_le_liveTasks (hkeep a ha) hin fun heq => hb (heq ▸ ha)
  · obtain ⟨a, ha⟩ := List.exists_mem_of_ne_nil _ hnone
    rw [← hlive] at ha
    obtain ⟨t, -, b, hreach, -, hb, hin, hkeep⟩ := enqueue_reachable hloaded hstartable
    refine ⟨t, (reaches_step hread).trans hreach, ?_⟩
    exact two_le_liveTasks (hkeep a ha) hin fun heq => hb (heq ▸ ha)

end disorderly

end MigrationSystem

end DataBridge
