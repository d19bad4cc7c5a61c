import DataBridge.System.Interleaving
import DataBridge.Workers.TaskFrame

namespace DataBridge

variable {Cr W : Type}

/-- The application database of `s` holds the row of a system that comes after `origin` and whose
run `i` is in `state`. -/
def Shows (migrationId : String) (i : Nat) (origin : MigrationSystem) (state : RunState)
    (s : TaskState W) : Prop :=
  ∃ t run, migrationSystem.Reaches Transition.anyAction origin t ∧
    s.app.migrations.get? migrationId = some t.record ∧ t.runs[i]? = some run ∧ run.state = state

namespace Shows

variable {migrationId : String} {i : Nat} {origin : MigrationSystem} {state : RunState}
  {s s' : TaskState W}

theorem frame (h : Shows migrationId i origin state s) (happ : s'.app = s.app) :
    Shows migrationId i origin state s' := by
  obtain ⟨t, run, hreach, hrow, hrun, hstate⟩ := h
  exact ⟨t, run, hreach, by rw [happ, hrow], hrun, hstate⟩

theorem row (h : Shows migrationId i origin state s) :
    ∃ record, s.app.migrations.get? migrationId = some record := by
  obtain ⟨t, -, -, hrow, -⟩ := h
  exact ⟨t.record, hrow⟩

/-- The run takes a step that leaves the row as it is. -/
theorem act (h : Shows migrationId i origin state s) {a : RunAction} {state' : RunState}
    (hnext : ∀ record, state.next record a = some state')
    (hrow : ∀ record, state.row record a = record) : Shows migrationId i origin state' s := by
  obtain ⟨t, run, hreach, hget, hrun, hstate⟩ := h
  subst hstate
  obtain ⟨u, hstep, hrecord, -, run', hrun', hstate'⟩ := MigrationSystem.exists_stepRun hrun
    (hnext t.record)
  refine ⟨u, run', hreach.trans (MigrationSystem.reaches_step hstep), ?_, hrun', hstate'⟩
  rw [hget, hrecord, hrow]

/-- The run reads and commits with no other step in between. -/
theorem session (h : Shows migrationId i origin state s) (op : Session) (a : RunAction)
    (now : Nat) {record : Migration} (hget : s.app.migrations.get? migrationId = some record)
    (hread : state.next record a = some (.session op record)) (hkeep : state.row record a = record)
    (hset : s'.app.migrations.get? migrationId = some (op.change record now)) :
    Shows migrationId i origin op.committed s' := by
  obtain ⟨t, run, hreach, hrow, hrun, hstate⟩ := h
  subst hstate
  have hrecord : t.record = record := by
    rw [hrow] at hget
    exact Option.some.inj hget
  rw [← hrecord] at hread hkeep hset
  obtain ⟨u, hstep, hu, -, run₁, hrun₁, hstate₁⟩ := MigrationSystem.exists_stepRun hrun hread
  have hcommit : run₁.state.next u.record (.commit now) = some op.committed := by
    rw [hstate₁]
    rfl
  obtain ⟨v, hstep', hv, -, run₂, hrun₂, hstate₂⟩ :=
    MigrationSystem.exists_stepRun hrun₁ hcommit
  refine ⟨v, run₂, hreach.trans ((MigrationSystem.reaches_step hstep).trans
    (MigrationSystem.reaches_step hstep')), ?_, hrun₂, hstate₂⟩
  rw [hset, hv, hu, hkeep, hstate₁, RunState.row, Migration.flush_self]

end Shows

namespace TaskContext

variable (x : TaskContext Cr W) {migrationId : String} {i : Nat} {origin : MigrationSystem}
  {state : RunState} {s : TaskState W} {α : Type}

/-- How a part of `_execute` may end: a returned value as `returned` says, an exception with the
run in `raised` and its text there. -/
def EndsWith (migrationId : String) (i : Nat) (origin : MigrationSystem)
    (returned : α → TaskState W → Prop) : Post Exc (TaskState W) α where
  returned := returned
  raised exc s := Shows migrationId i origin (.raised exc.text) s
  exhausted s := ∃ state, Shows migrationId i origin state s

/-- A returned value leaves the run in `after`. -/
def Ends (migrationId : String) (i : Nat) (origin : MigrationSystem) (after : α → RunState) :
    Post Exc (TaskState W) α :=
  EndsWith migrationId i origin fun a => Shows migrationId i origin (after a)

/-- A returned record is the row, with the run in `state`. -/
def EndsWithRow (migrationId : String) (i : Nat) (origin : MigrationSystem) (state : RunState)
    (record : α → Migration) : Post Exc (TaskState W) α :=
  EndsWith migrationId i origin fun a s => Shows migrationId i origin state s ∧
    s.app.migrations.get? migrationId = some (record a)

/-- An exception takes a run in `state` to `raised`. -/
def Raises (state : RunState) : Prop :=
  ∀ error record, state.next record (.raise error) = some (.raised error)

theorem Raises.shows (hr : Raises state) (h : Shows migrationId i origin state s) (error : String) :
    Shows migrationId i origin (.raised error) s := by
  apply h.act (hr error)
  intro record
  cases state <;> rfl

theorem wp_outside (c : Call Exc W α) (s : TaskState W) :
    Call.wp (outside c) ⟨fun _ s' => s'.app = s.app, fun _ s' => s'.app = s.app,
      fun s' => s'.app = s.app⟩ s := by
  rw [outside, Call.wp_zoom]
  exact Call.wp_of_forall (fun _ _ => rfl) (fun _ _ => rfl) (fun _ => rfl)

theorem keeps_outside (c : Call Exc W α) :
    Call.Keeps (Shows migrationId i origin state) (outside c) := by
  intro s h
  exact Call.wp_mono (wp_outside c s) (fun _ _ ha => h.frame ha) (fun _ _ ha => h.frame ha)
    (fun _ ha => h.frame ha)

/-- A call outside the application database. -/
theorem ends_outside (hr : Raises state) (h : Shows migrationId i origin state s)
    (c : Call Exc W α) : Call.wp (outside c) (Ends migrationId i origin fun _ => state) s :=
  Call.wp_mono (keeps_outside c s h) (fun _ _ h' => h') (fun exc _ h' => hr.shows h' exc.text)
    (fun _ h' => ⟨state, h'⟩)

/-- A call outside the application database, between a read of the record and its commit. -/
theorem ends_outside_row {record : Migration} (hr : Raises state)
    (h : Shows migrationId i origin state s)
    (hget : s.app.migrations.get? migrationId = some record) (c : Call Exc W α) :
    Call.wp (outside c) (EndsWithRow migrationId i origin state fun _ => record) s := by
  refine Call.wp_mono (wp_outside c s) ?_ (fun exc _ ha => hr.shows (h.frame ha) exc.text)
    (fun _ ha => ⟨state, h.frame ha⟩)
  intro _ s' happ
  have happ' : s'.app = s.app := happ
  exact ⟨h.frame happ', by rw [happ', hget]⟩

theorem ends_broadcast (hr : Raises state) (h : Shows migrationId i origin state s)
    (event : Event) :
    Call.wp (x.broadcast migrationId event) (Ends migrationId i origin fun _ => state) s := by
  apply Call.wp_seq (ends_outside hr h x.sockets)
  exact fun _ _ h' => h'.frame rfl

/-- A read of the record finds the row, or raises. -/
theorem wp_selectMigration (s : TaskState W) :
    Call.wp (x.selectMigration migrationId)
      ⟨fun r s' => s'.app = s.app ∧ r = s.app.migrations.get? migrationId,
        fun _ s' => s'.app = s.app, fun s' => s'.app = s.app⟩ s := by
  rw [selectMigration, Call.wp_bind]
  refine Call.wp_mono (wp_outside x.appDb s) ?_ (fun _ _ h => h) (fun _ h => h)
  intro _ s' happ
  have happ' : s'.app = s.app := happ
  exact ⟨happ', by dsimp only; rw [happ']⟩

theorem ends_selectMigration (hr : Raises state) (h : Shows migrationId i origin state s) :
    Call.wp (x.selectMigration migrationId)
      (EndsWith migrationId i origin fun r s' => Shows migrationId i origin state s' ∧
        ∃ record, r = some record ∧ s'.app.migrations.get? migrationId = some record) s := by
  refine Call.wp_mono (x.wp_selectMigration s) ?_ ?_ ?_
  · intro r s' h'
    obtain ⟨happ, hrow⟩ := h'
    obtain ⟨record, hget⟩ := h.row
    exact ⟨h.frame happ, record, hrow.trans hget, by rw [happ, hget]⟩
  · exact fun exc s' happ => hr.shows (h.frame happ) exc.text
  · exact fun s' happ => ⟨state, h.frame happ⟩

theorem wp_selectOne {record : Migration} (hget : s.app.migrations.get? migrationId = some record) :
    Call.wp (x.selectOne migrationId)
      ⟨fun r s' => s'.app = s.app ∧ r = record, fun _ s' => s'.app = s.app,
        fun s' => s'.app = s.app⟩ s := by
  apply Call.wp_seq (x.wp_selectMigration s)
  intro r s' h
  obtain ⟨happ, hrow⟩ := h
  rw [hget] at hrow
  subst hrow
  exact ⟨happ, rfl⟩

/-- A read of the record returns the row. -/
theorem ends_selectOne (hr : Raises state) (h : Shows migrationId i origin state s) :
    Call.wp (x.selectOne migrationId) (EndsWithRow migrationId i origin state id) s := by
  obtain ⟨record, hget⟩ := h.row
  refine Call.wp_mono (x.wp_selectOne hget) ?_ (fun exc _ ha => hr.shows (h.frame ha) exc.text)
    (fun _ ha => ⟨state, h.frame ha⟩)
  intro r s' h'
  obtain ⟨happ, hrecord⟩ := h'
  subst hrecord
  exact ⟨h.frame happ, by rw [happ, hget]; rfl⟩

/-- A commit sets the row, or raises and leaves it. -/
theorem wp_commitMigration (record : Migration) (s : TaskState W) :
    Call.wp (x.commitMigration migrationId record)
      ⟨fun _ s' => s'.app.migrations.get? migrationId = some record, fun _ s' => s'.app = s.app,
        fun s' => s'.app = s.app⟩ s := by
  apply Call.wp_seq (wp_outside x.appDb s)
  intro _ s' _
  simp

/-- A commit of what a session makes of the row it has read. -/
theorem ends_commit (op : Session) (a : RunAction) (now : Nat) {record : Migration}
    (hr : Raises state) (h : Shows migrationId i origin state s)
    (hget : s.app.migrations.get? migrationId = some record)
    (hread : state.next record a = some (.session op record))
    (hkeep : state.row record a = record) :
    Call.wp (x.commitMigration migrationId (op.change record now))
      (Ends migrationId i origin fun _ => op.committed) s :=
  Call.wp_mono (x.wp_commitMigration _ s) (fun _ _ hset => h.session op a now hget hread hkeep hset)
    (fun exc _ ha => hr.shows (h.frame ha) exc.text) (fun _ ha => ⟨state, h.frame ha⟩)

theorem raises_began : Raises .began := fun _ _ => rfl
theorem raises_marked : Raises .marked := fun _ _ => rfl
theorem raises_completed (result : ExecResult) : Raises (.completed result) := fun _ _ => rfl
theorem raises_finalised : Raises .finalised := fun _ _ => rfl
theorem raises_failing (error : String) : Raises (.failing error) := fun _ _ => rfl
theorem raises_failed : Raises .failed := fun _ _ => rfl

theorem ends_markRunning (h : Shows migrationId i origin .began s) :
    Call.wp (x.markRunning migrationId) (Ends migrationId i origin fun _ => .marked) s := by
  apply Call.wp_seq (x.ends_selectMigration raises_began h)
  intro r s₁ h₁
  obtain ⟨hshows, record, hsome, hget⟩ := h₁
  subst hsome
  have hfail : ∀ exc : Exc, Shows migrationId i origin (.raised exc.text) s₁ :=
    fun exc => raises_began.shows hshows exc.text
  dsimp only
  refine Call.wp_bind_ofExcept (fun tables _ => ?_) (fun exc _ => hfail exc)
  refine Call.wp_bind_ofExcept (fun migSettings _ => ?_) (fun exc _ => hfail exc)
  refine Call.wp_bind_ofExcept (fun srcCreds _ => ?_) (fun exc _ => hfail exc)
  refine Call.wp_bind_ofExcept (fun dstCreds _ => ?_) (fun exc _ => hfail exc)
  apply Call.wp_seq (ends_outside_row raises_began hshows hget x.now)
  intro now s₂ h₂
  apply Call.wp_seq (x.ends_commit .mark .read now raises_began h₂.1 h₂.2 rfl rfl)
  exact fun _ _ h' => h'

/-- `on_progress` is a session of the run, which goes on copying however the session ends. -/
theorem keeps_onProgress (plan : MigrationPlan) (tableName : String) (rows total : Nat)
    (error : Option String) : Call.Keeps (Shows migrationId i origin .running)
      (x.onProgress migrationId plan tableName rows total error) := by
  refine (keeps_outside x.elapsed).bind fun elapsed => ?_
  have hbroadcast : ∀ event, Call.Keeps (Shows migrationId i origin .running)
      (x.broadcast migrationId event) := fun event =>
    (keeps_outside x.sockets).bind fun _ => Call.keeps_modify fun _ h => h.frame rfl
  intro s h
  obtain ⟨record, hget⟩ := h.row
  rw [Call.wp_bind]
  refine Call.wp_mono (x.wp_selectOne hget) ?_ (fun _ _ ha => h.frame ha) (fun _ ha => h.frame ha)
  intro r s₁ h₁
  obtain ⟨happ, hrecord⟩ := h₁
  subst hrecord
  have hshows : Shows migrationId i origin .running s₁ := h.frame happ
  have hget₁ : s₁.app.migrations.get? migrationId = some r := by rw [happ, hget]
  dsimp only
  rw [Call.wp_bind]
  refine Call.wp_mono (x.wp_commitMigration _ s₁) ?_ (fun _ _ ha => hshows.frame ha)
    (fun _ ha => hshows.frame ha)
  intro _ s₂ hset
  exact hbroadcast _ s₂ (hshows.session (.progress tableName total) (.progress tableName total) 0
    hget₁ rfl rfl hset)

theorem keeps_onLog (level message : String) (tableName : Option String) :
    Call.Keeps (Shows migrationId i origin .running)
      (x.onLog migrationId level message tableName) := by
  refine (keeps_outside x.newUuid).bind fun id => ?_
  refine (keeps_outside x.appDb).bind fun _ => ?_
  refine (keeps_outside x.now).bind fun createdAt => ?_
  refine Call.Keeps.bind (Call.keeps_modify ?_) fun _ => ?_
  · intro s h
    obtain ⟨t, run, hreach, hrow, hrun, hstate⟩ := h
    exact ⟨t, run, hreach, hrow, hrun, hstate⟩
  · exact (keeps_outside x.sockets).bind fun _ => Call.keeps_modify fun _ h => h.frame rfl

/-- Planning and execution change the record by progress sessions only. -/
theorem maintains_shows : x.Maintains (Shows migrationId i origin .running) migrationId :=
  ⟨keeps_outside, x.keeps_onProgress, x.keeps_onLog⟩

theorem ends_markFailed {error : String} (h : Shows migrationId i origin (.failing error) s) :
    Call.wp (x.markFailed migrationId error) (Ends migrationId i origin fun _ => .failed) s := by
  apply Call.wp_seq (x.ends_selectMigration (raises_failing error) h)
  intro r s₁ h₁
  obtain ⟨hshows, record, hsome, hget⟩ := h₁
  subst hsome
  have hwrite : Call.wp (x.writeFailed migrationId error (some record))
      (Ends migrationId i origin fun _ => .failed) s₁ := by
    apply Call.wp_seq (ends_outside_row (raises_failing error) hshows hget x.now)
    intro now s₂ h₂
    exact x.ends_commit (.handler error) .read now (raises_failing error) h₂.1 h₂.2 rfl rfl
  apply Call.wp_seq hwrite
  exact fun _ s₃ h₃ => x.ends_broadcast raises_failed h₃ _

theorem ends_migrate (fuel : Nat) (job : Job Cr) (h : Shows migrationId i origin .marked s) :
    Call.wp (x.migrate fuel migrationId job) (Ends migrationId i origin .completed) s := by
  have hfail : ∀ exc : Exc, Shows migrationId i origin (.raised exc.text) s :=
    fun exc => raises_marked.shows h exc.text
  rw [migrate_eq]
  refine Call.wp_bind_ofExcept (fun p _ => ?_) (fun exc _ => hfail exc)
  have hrunning : Shows migrationId i origin .running s :=
    h.act (a := .advance) (fun _ => rfl) (fun _ => rfl)
  have hbody := x.maintains_shows.tryBody fuel job p s hrunning
  rw [Call.wp_tryExcept]
  refine Call.wp_mono hbody ?_ ?_ (fun _ h' => ⟨.running, h'⟩)
  · intro result s₁ h₁
    exact h₁.act (a := .complete result) (fun _ => rfl) (fun _ => rfl)
  · intro exc s₁ h₁
    have hfailing : Shows migrationId i origin (.failing (failureText exc)) s₁ :=
      h₁.act (a := .raise (failureText exc)) (fun _ => rfl) (fun _ => rfl)
    apply Call.wp_seq (x.ends_markFailed hfailing)
    exact fun _ s₂ h₂ => raises_failed.shows h₂ exc.text

theorem ends_finalise {result : ExecResult} (h : Shows migrationId i origin (.completed result) s) :
    Call.wp (x.finalise migrationId result) (Ends migrationId i origin fun _ => .finalised) s := by
  apply Call.wp_seq (x.ends_selectOne (raises_completed result) h)
  intro record s₁ h₁
  apply Call.wp_seq (ends_outside_row (raises_completed result) h₁.1 h₁.2 x.now)
  intro now s₂ h₂
  exact x.ends_commit (.finalise result) .read now (raises_completed result) h₂.1 h₂.2 rfl rfl

theorem ends_execute (fuel : Nat) (h : Shows migrationId i origin .began s) :
    Call.wp (x.execute fuel migrationId) (Ends migrationId i origin fun _ => .ended) s := by
  apply Call.wp_seq (x.ends_markRunning h)
  intro job s₁ h₁
  apply Call.wp_seq (x.ends_migrate fuel job h₁)
  intro result s₂ h₂
  apply Call.wp_seq (x.ends_finalise h₂)
  intro _ s₃ h₃
  apply Call.wp_seq (x.ends_broadcast raises_finalised h₃ _)
  intro _ s₄ h₄
  exact h₄.act (a := .advance) (fun _ => rfl) (fun _ => rfl)

/-- Every run of `_execute` by itself is a run of the interleaved system: from a state with the
same row and a run that begins, steps of the system lead to the row that `_execute` leaves, with
the run ended or the exception on its way to `on_failure`. -/
theorem execute_reaches (fuel : Nat) {s s' : TaskState W} {outcome : Outcome Exc ExecResult}
    {σ : MigrationSystem} {run : Run} (hrow : s.app.migrations.get? migrationId = some σ.record)
    (hrun : σ.runs[i]? = some run) (hbegan : run.state = .began)
    (h : x.execute fuel migrationId s = (outcome, s')) :
    ∃ σ' run', migrationSystem.Reaches Transition.anyAction σ σ' ∧
      s'.app.migrations.get? migrationId = some σ'.record ∧ σ'.runs[i]? = some run' ∧
      (∀ result, outcome = .returned result → run'.state = .ended) ∧
      ∀ exc, outcome = .raised exc → run'.state = .raised exc.text := by
  have hends := x.ends_execute fuel
    (⟨σ, run, Transition.Reaches.refl σ, hrow, hrun, hbegan⟩ : Shows migrationId i σ .began s)
  cases outcome with
  | returned result =>
    obtain ⟨σ', run', hreach, hget, hrun', hstate⟩ := Call.wp_of_returned hends h
    exact ⟨σ', run', hreach, hget, hrun', fun _ _ => hstate,
      fun _ he => (by cases he)⟩
  | raised exc =>
    obtain ⟨σ', run', hreach, hget, hrun', hstate⟩ := Call.wp_of_raised hends h
    refine ⟨σ', run', hreach, hget, hrun', fun _ he => (by cases he), ?_⟩
    intro exc' he
    cases he
    exact hstate
  | exhausted =>
    obtain ⟨state, σ', run', hreach, hget, hrun', -⟩ := Call.wp_of_exhausted hends h
    exact ⟨σ', run', hreach, hget, hrun', fun _ he => (by cases he), fun _ he => (by cases he)⟩

end TaskContext

end DataBridge
