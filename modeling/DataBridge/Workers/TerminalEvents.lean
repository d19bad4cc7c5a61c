import DataBridge.System.SoloRun

namespace DataBridge

variable {Cr W α : Type}

/-- One of the two events that end a migration for its sockets. -/
def Event.isTerminal : Event → Bool
  | .completed _ => true
  | .failed _ => true
  | _ => false

/-- The terminal events of a migration, in the order of their broadcasts. -/
def terminalEvents (migrationId : String) (events : List (String × Event)) : List Event :=
  (events.filter fun e => e.1 = migrationId ∧ e.2.isTerminal).map (·.2)

namespace TaskContext

variable (x : TaskContext Cr W) (migrationId : String)

/-- The task as Celery runs it: `on_failure` is called after an exception. -/
def runTask (fuel : Nat) : Call Exc (TaskState W) Unit :=
  Call.tryExcept
    (do
      let _ ← x.execute fuel migrationId
      pure ())
    (fun exc => x.markFailed migrationId exc.text)

/-- The migration exists, and these are its terminal events. -/
def Quiet (terminal : List Event) (s : TaskState W) : Prop :=
  terminalEvents migrationId s.events = terminal ∧
    ∃ record, s.app.migrations.get? migrationId = some record

/-- One more terminal event, and the status of the record. -/
def Ended (terminal : List Event) (event : Event) (status : MigrationStatus) (s : TaskState W) :
    Prop :=
  terminalEvents migrationId s.events = terminal ++ [event] ∧
    ∃ record, s.app.migrations.get? migrationId = some record ∧ record.status = status

variable {migrationId} {terminal : List Event}

theorem quiet_outside (c : Call Exc W α) : Call.Keeps (Quiet migrationId terminal) (outside c) := by
  intro s h
  rw [outside, Call.wp_zoom]
  exact Call.wp_of_forall (fun _ _ => h) (fun _ _ => h) (fun _ => h)

theorem quiet_broadcast {event : Event} (hevent : event.isTerminal = false) :
    Call.Keeps (Quiet migrationId terminal) (x.broadcast migrationId event) := by
  refine (quiet_outside x.sockets).bind fun _ => Call.keeps_modify ?_
  intro s h
  obtain ⟨hterminal, hrow⟩ := h
  exact ⟨by simpa [terminalEvents, hevent] using hterminal, hrow⟩

/-- After a commit the row is the one committed. -/
theorem wp_commit_quiet (record : Migration) (s : TaskState W) (h : Quiet migrationId terminal s) :
    Call.wp (x.commitMigration migrationId record)
      ⟨fun _ s' => terminalEvents migrationId s'.events = terminal ∧
          s'.app.migrations.get? migrationId = some record,
        fun _ => Quiet migrationId terminal, Quiet migrationId terminal⟩ s := by
  refine Call.wp_seq (quiet_outside x.appDb s h) fun _ s' h' => ?_
  exact ⟨h'.1, by simp⟩

theorem quiet_commit (record : Migration) :
    Call.Keeps (Quiet migrationId terminal) (x.commitMigration migrationId record) :=
  fun s h => Call.wp_mono (x.wp_commit_quiet record s h) (fun _ _ h' => ⟨h'.1, record, h'.2⟩)
    (fun _ _ h' => h') (fun _ h' => h')

theorem quiet_selectMigration :
    Call.Keeps (Quiet migrationId terminal) (x.selectMigration migrationId) :=
  (quiet_outside x.appDb).bind fun _ => Call.keeps_read _

theorem quiet_selectOne : Call.Keeps (Quiet migrationId terminal) (x.selectOne migrationId) := by
  refine x.quiet_selectMigration.bind fun found => ?_
  cases found with
  | none => exact fun _ h => h
  | some record => exact Call.keeps_pure record

theorem maintains_quiet : x.Maintains (Quiet migrationId terminal) migrationId := by
  refine ⟨quiet_outside, ?_, ?_⟩
  · intro plan tableName rows total error
    refine (quiet_outside x.elapsed).bind fun elapsed => x.quiet_selectOne.bind fun record => ?_
    exact (x.quiet_commit _).bind fun _ => x.quiet_broadcast rfl
  · intro level message tableName
    refine (quiet_outside x.newUuid).bind fun id => (quiet_outside x.appDb).bind fun _ => ?_
    refine (quiet_outside x.now).bind fun createdAt => ?_
    refine Call.Keeps.bind (Call.keeps_modify ?_) fun _ => x.quiet_broadcast rfl
    exact fun s h => h

theorem quiet_markRunning :
    Call.Keeps (Quiet migrationId terminal) (x.markRunning migrationId) := by
  refine x.quiet_selectMigration.bind fun found => ?_
  cases found with
  | none => exact fun _ h => h
  | some record =>
    refine (Call.keeps_ofExcept _).bind fun tables => (Call.keeps_ofExcept _).bind fun migSettings => ?_
    refine (Call.keeps_ofExcept _).bind fun srcCreds => (Call.keeps_ofExcept _).bind fun dstCreds => ?_
    refine (quiet_outside x.now).bind fun now => (x.quiet_commit _).bind fun _ => ?_
    exact Call.keeps_pure _

/-- A terminal broadcast, after a commit of the record. -/
theorem wp_broadcast_terminal {event : Event} (hevent : event.isTerminal = true)
    {record : Migration} {s : TaskState W} (hterminal : terminalEvents migrationId s.events = terminal)
    (hrow : s.app.migrations.get? migrationId = some record) :
    Call.wp (x.broadcast migrationId event)
      ⟨fun _ => Ended migrationId terminal event record.status,
        fun _ => Quiet migrationId terminal, Quiet migrationId terminal⟩ s := by
  have hquiet : ∀ w, Quiet migrationId terminal ({ s with world := w } : TaskState W) :=
    fun _ => ⟨hterminal, record, hrow⟩
  rw [broadcast, Call.wp_bind, outside, Call.wp_zoom]
  refine Call.wp_of_forall (fun _ w => ⟨?_, record, hrow, rfl⟩) (fun _ w => hquiet w) hquiet
  change terminalEvents migrationId (s.events ++ [(migrationId, event)]) = terminal ++ [event]
  rw [← hterminal]
  simp [terminalEvents, hevent]

/-- `_mark_failed` ends a migration that exists. -/
theorem wp_markFailed (error : String) (s : TaskState W) (h : Quiet migrationId terminal s) :
    Call.wp (x.markFailed migrationId error)
      ⟨fun _ => Ended migrationId terminal (.failed error) .FAILED,
        fun _ => Quiet migrationId terminal, Quiet migrationId terminal⟩ s := by
  have hselect := Call.wp_and (x.quiet_selectMigration s h) (x.wp_selectMigration s)
  refine Call.wp_seq (Call.wp_mono hselect (fun _ _ h' => h') (fun _ _ h' => h'.1)
    (fun _ h' => h'.1)) ?_
  intro found s₁ hparts
  obtain ⟨hquiet, -, hfound⟩ := hparts
  obtain ⟨-, record, hrow⟩ := h
  rw [hrow] at hfound
  subst hfound
  refine Call.wp_seq (R := fun _ s₂ => terminalEvents migrationId s₂.events = terminal ∧
    ∃ record', s₂.app.migrations.get? migrationId = some record' ∧ record'.status = .FAILED) ?_ ?_
  · refine Call.wp_seq (quiet_outside x.now s₁ hquiet) fun now s₂ h₂ => ?_
    refine Call.wp_mono (x.wp_commit_quiet (failedRecord record error now) s₂ h₂) ?_
      (fun _ _ h' => h') (fun _ h' => h')
    exact fun _ s₃ h₃ => ⟨h₃.1, _, h₃.2, rfl⟩
  · intro _ s₂ hfound
    obtain ⟨hterminal, record', hrow', hstatus⟩ := hfound
    rw [← hstatus]
    exact x.wp_broadcast_terminal rfl hterminal hrow'

/-- The end of `_execute`: the final commit and the broadcast. -/
theorem wp_finish (result : ExecResult) (s : TaskState W) (h : Quiet migrationId terminal s) :
    Call.wp (do
      x.finalise migrationId result
      x.broadcast migrationId (.completed result)
      pure result)
      ⟨fun r s' => r = result ∧ Ended migrationId terminal (.completed result)
          (if result.failedTables = [] then .COMPLETED else .FAILED) s',
        fun _ => Quiet migrationId terminal, fun _ => True⟩ s := by
  have hfinalise : Call.wp (x.finalise migrationId result)
      ⟨fun _ s' => terminalEvents migrationId s'.events = terminal ∧ ∃ record now,
          s'.app.migrations.get? migrationId = some (finalRecord record result now),
        fun _ => Quiet migrationId terminal, Quiet migrationId terminal⟩ s := by
    refine Call.wp_seq (x.quiet_selectOne s h) fun record s₁ h₁ => ?_
    refine Call.wp_seq (quiet_outside x.now s₁ h₁) fun now s₂ h₂ => ?_
    refine Call.wp_mono (x.wp_commit_quiet (finalRecord record result now) s₂ h₂) ?_
      (fun _ _ h' => h') (fun _ h' => h')
    exact fun _ s₃ h₃ => ⟨h₃.1, record, now, h₃.2⟩
  refine Call.wp_seq (Call.wp_mono hfinalise (fun _ _ h' => h') (fun _ _ h' => h')
    (fun _ _ => trivial)) ?_
  intro _ s₁ hparts
  obtain ⟨hterminal, record, now, hrow⟩ := hparts
  refine Call.wp_seq (Call.wp_mono (x.wp_broadcast_terminal rfl hterminal hrow) (fun _ _ h' => h')
    (fun _ _ h' => h') (fun _ _ => trivial)) ?_
  exact fun _ s₂ h₂ => ⟨rfl, h₂⟩

/-- The `try` of `_execute` raises, and its handler gets through its own broadcast. -/
def HandlerBroadcasts (migrationId : String) (fuel : Nat) (s : TaskState W) : Prop :=
  ∃ job s₁ p exc s₂ s₃, x.markRunning migrationId s = (.returned job, s₁) ∧
    x.providers job = .ok p ∧ x.tryBody migrationId fuel job p s₁ = (.raised exc, s₂) ∧
    x.markFailed migrationId (failureText exc) s₂ = (.returned (), s₃)

/-- Nothing raises, and some tables failed. -/
def TablesFail (migrationId : String) (fuel : Nat) (s : TaskState W) : Prop :=
  ∃ result s', x.execute fuel migrationId s = (.returned result, s') ∧ result.failedTables ≠ []

/-- From the marked record to the end of the `try`. -/
theorem wp_migrate_terminal (fuel : Nat) {job : Job Cr} {s s₁ : TaskState W}
    (hmarked : x.markRunning migrationId s = (.returned job, s₁))
    (hquiet : Quiet migrationId terminal s₁) :
    Call.wp (x.migrate fuel migrationId job)
      ⟨fun _ s' => Quiet migrationId terminal s' ∧ ¬ x.HandlerBroadcasts migrationId fuel s,
        fun _ s' => (x.HandlerBroadcasts migrationId fuel s ∧
            ∃ error, Quiet migrationId (terminal ++ [.failed error]) s') ∨
          (¬ x.HandlerBroadcasts migrationId fuel s ∧ Quiet migrationId terminal s'),
        fun _ => True⟩ s₁ := by
  rw [migrate_eq]
  refine Call.wp_bind_ofExcept (fun p hp => ?_) (fun exc hp => ?_)
  · have hbody := Call.wp_and (Call.wp_self (x.tryBody migrationId fuel job p) s₁)
      (x.maintains_quiet.tryBody fuel job p s₁ hquiet)
    rw [Call.wp_tryExcept]
    refine Call.wp_mono hbody ?_ ?_ (fun _ _ => trivial)
    · intro result s₂ hparts
      obtain ⟨hreturned, hquiet₂⟩ := hparts
      refine ⟨hquiet₂, ?_⟩
      intro hfound
      obtain ⟨job', s₁', p', exc, s₂', s₃, hmarked', hp', hraised, -⟩ := hfound
      rw [hmarked] at hmarked'
      cases hmarked'
      rw [hp] at hp'
      cases hp'
      rw [hreturned] at hraised
      cases hraised
    · intro exc s₂ hfound
      obtain ⟨hraised, hquiet₂⟩ := hfound
      have hfailed := Call.wp_and (Call.wp_self (x.markFailed migrationId (failureText exc)) s₂)
        (x.wp_markFailed (failureText exc) s₂ hquiet₂)
      refine Call.wp_seq (Call.wp_mono hfailed (fun _ _ h => h) ?_ (fun _ _ => trivial)) ?_
      · intro exc' s₃ hfound
        obtain ⟨hhandler, hquiet₃⟩ := hfound
        refine Or.inr ⟨?_, hquiet₃⟩
        intro hfound
        obtain ⟨job', s₁', p', exc'', s₂', s₃', hmarked', hp', hraised', hhandler'⟩ := hfound
        rw [hmarked] at hmarked'
        cases hmarked'
        rw [hp] at hp'
        cases hp'
        rw [hraised] at hraised'
        cases hraised'
        rw [hhandler] at hhandler'
        cases hhandler'
      · intro _ s₃ hfound
        obtain ⟨hhandler, hterminal, record, hrow, -⟩ := hfound
        exact Or.inl ⟨⟨job, s₁, p, exc, s₂, s₃, hmarked, hp, hraised, hhandler⟩,
          failureText exc, hterminal, record, hrow⟩
  · refine Or.inr ⟨?_, hquiet⟩
    intro hfound
    obtain ⟨job', s₁', p', exc', s₂, s₃, hmarked', hp', -⟩ := hfound
    rw [hmarked] at hmarked'
    cases hmarked'
    rw [hp] at hp'
    cases hp'

/-- A run of `_execute` that returns broadcasts one terminal event, and one that raises broadcasts
one if and only if its handler does. -/
theorem wp_execute_terminal (fuel : Nat) (s : TaskState W) (h : Quiet migrationId terminal s) :
    Call.wp (x.execute fuel migrationId)
      ⟨fun result s' => Ended migrationId terminal (.completed result)
          (if result.failedTables = [] then .COMPLETED else .FAILED) s' ∧
          ¬ x.HandlerBroadcasts migrationId fuel s,
        fun _ s' => (x.HandlerBroadcasts migrationId fuel s ∧
            ∃ error, Quiet migrationId (terminal ++ [.failed error]) s') ∨
          (¬ x.HandlerBroadcasts migrationId fuel s ∧ Quiet migrationId terminal s'),
        fun _ => True⟩ s := by
  have hmark := Call.wp_and (Call.wp_self (x.markRunning migrationId) s) (x.quiet_markRunning s h)
  refine Call.wp_seq (Call.wp_mono hmark (fun _ _ h' => h') ?_ (fun _ _ => trivial)) ?_
  · intro exc s₁ hparts
    obtain ⟨hraised, hquiet⟩ := hparts
    refine Or.inr ⟨?_, hquiet⟩
    intro hfound
    obtain ⟨job, s₁', p, exc', s₂, s₃, hmarked, -⟩ := hfound
    rw [hraised] at hmarked
    cases hmarked
  intro job s₁ hfound
  obtain ⟨hmarked, hquiet⟩ := hfound
  refine Call.wp_seq (x.wp_migrate_terminal fuel hmarked hquiet) ?_
  intro result s₂ hfound
  obtain ⟨hquiet₂, hno⟩ := hfound
  refine Call.wp_mono (x.wp_finish result s₂ hquiet₂) ?_ ?_ (fun _ h' => h')
  · intro r s₃ hfound
    obtain ⟨hr, hended⟩ := hfound
    subst hr
    exact ⟨hended, hno⟩
  · exact fun _ s₃ hquiet₃ => Or.inr ⟨hno, hquiet₃⟩

end TaskContext

/-- The run has broadcast one terminal event, which tells how the record stands. -/
def TellsTruth {W : Type} (migrationId : String) (before after : TaskState W) : Prop :=
  ∃ event record,
    terminalEvents migrationId after.events = terminalEvents migrationId before.events ++ [event] ∧
    after.app.migrations.get? migrationId = some record ∧
    ((∃ result, event = .completed result) ↔ record.status = .COMPLETED) ∧
    ((∃ error, event = .failed error) ↔ record.status = .FAILED)

section endings

variable {migrationId : String} {before after : TaskState W}

/-- A 'completed' event tells the truth where no table failed. -/
theorem tellsTruth_completed {result : ExecResult}
    (h : TaskContext.Ended migrationId (terminalEvents migrationId before.events) (.completed result)
      (if result.failedTables = [] then .COMPLETED else .FAILED) after) :
    TellsTruth migrationId before after ↔ result.failedTables = [] := by
  obtain ⟨hevents, record, hrow, hstatus⟩ := h
  constructor
  · intro hparts
    obtain ⟨event, record', hevents', hrow', hcompleted, -⟩ := hparts
    rw [hevents] at hevents'
    have hevent : Event.completed result = event := by simpa using hevents'
    rw [hrow] at hrow'
    cases hrow'
    have hdone := hcompleted.mp ⟨result, hevent.symm⟩
    rw [hstatus] at hdone
    by_contra hne
    rw [if_neg hne] at hdone
    cases hdone
  · intro hnone
    rw [if_pos hnone] at hstatus
    refine ⟨_, record, hevents, hrow, ?_, ?_⟩
    · exact iff_of_true ⟨result, rfl⟩ hstatus
    · exact iff_of_false (by rintro ⟨_, h⟩; cases h) (by rw [hstatus]; decide)

theorem tellsTruth_failed {error : String}
    (h : TaskContext.Ended migrationId (terminalEvents migrationId before.events) (.failed error)
      .FAILED after) : TellsTruth migrationId before after := by
  obtain ⟨hevents, record, hrow, hstatus⟩ := h
  refine ⟨_, record, hevents, hrow, ?_, ?_⟩
  · exact iff_of_false (by rintro ⟨_, h⟩; cases h) (by rw [hstatus]; decide)
  · exact iff_of_true ⟨error, rfl⟩ hstatus

/-- Two events are one too many. -/
theorem not_tellsTruth_twice {first second : Event}
    (h : terminalEvents migrationId after.events =
      terminalEvents migrationId before.events ++ [first] ++ [second]) :
    ¬ TellsTruth migrationId before after := by
  intro hparts
  obtain ⟨event, -, hevents, -⟩ := hparts
  have hlength := congrArg List.length (h.symm.trans hevents)
  simp at hlength

end endings

/-- Exactly one true terminal event is broadcast, if and only if neither the `try` raises with its
handler broadcasting, nor tables fail where nothing raises. -/
theorem tellsTruth_iff (x : TaskContext Cr W) (fuel : Nat) (migrationId : String)
    {s s' : TaskState W} {record : Migration}
    (hrow : s.app.migrations.get? migrationId = some record)
    (hrun : x.runTask migrationId fuel s = (.returned (), s')) :
    TellsTruth migrationId s s' ↔
      ¬ x.HandlerBroadcasts migrationId fuel s ∧ ¬ x.TablesFail migrationId fuel s := by
  have hstart : TaskContext.Quiet migrationId (terminalEvents migrationId s.events) s :=
    ⟨rfl, record, hrow⟩
  have hpost : Call.wp (x.runTask migrationId fuel)
      (Post.onReturn fun _ s' => TellsTruth migrationId s s' ↔
        ¬ x.HandlerBroadcasts migrationId fuel s ∧ ¬ x.TablesFail migrationId fuel s) s := by
    have hexecute := Call.wp_and (Call.wp_self (x.execute fuel migrationId) s)
      (x.wp_execute_terminal fuel s hstart)
    rw [TaskContext.runTask, Call.wp_tryExcept, Call.wp_bind]
    refine Call.wp_mono hexecute ?_ ?_ (fun _ _ => trivial)
    · intro result s₁ hparts
      obtain ⟨hreturned, hended, hno⟩ := hparts
      have htables : x.TablesFail migrationId fuel s ↔ result.failedTables ≠ [] := by
        constructor
        · intro hfound
          obtain ⟨result', s₁', hreturned', hne⟩ := hfound
          rw [hreturned] at hreturned'
          cases hreturned'
          exact hne
        · exact fun hne => ⟨result, s₁, hreturned, hne⟩
      change TellsTruth migrationId s s₁ ↔ _
      rw [tellsTruth_completed hended, htables, not_not]
      exact ⟨fun h => ⟨hno, h⟩, fun h => h.2⟩
    · intro exc s₁ hfound
      obtain ⟨hraised, hcases⟩ := hfound
      rcases hcases with ⟨hhandler, error, hquiet⟩ | ⟨hno, hquiet⟩
      · refine Call.wp_mono (x.wp_markFailed exc.text s₁ hquiet) ?_ (fun _ _ _ => trivial)
          (fun _ _ => trivial)
        exact fun _ s₂ hended => iff_of_false (not_tellsTruth_twice hended.1) fun h => h.1 hhandler
      · refine Call.wp_mono (x.wp_markFailed exc.text s₁ hquiet) ?_ (fun _ _ _ => trivial)
          (fun _ _ => trivial)
        refine fun _ s₂ hended => iff_of_true (tellsTruth_failed hended) ⟨hno, ?_⟩
        intro hfound
        obtain ⟨result, s₁', hreturned, -⟩ := hfound
        rw [hraised] at hreturned
        cases hreturned
  exact Call.wp_of_returned hpost hrun

private def someProvider : ManagedProvider Unit where
  getTableSchema t := pure { name := t, columns := [{ name := "id", dataType := "INTEGER" }] }
  tableExists _ := pure false
  fetchBatch _ _ _ _ := pure []
  createTable _ := pure ()
  insertBatch _ rows _ := pure rows.length
  truncateTable _ := pure ()

private def someTask (p : ManagedProvider Unit) : TaskContext Unit Unit where
  loadsTables _ := .ok ["users"]
  loadsSettings _ := .ok {}
  decryptCredentials _ := .ok ()
  databaseType _ := some "sqlite"
  getProvider _ _ := .ok p
  now := pure 1
  elapsed := pure 1
  newUuid := pure "id"

private def pendingRecord : Migration :=
  { sourceConnection := "source", destinationConnection := "destination" }

private def taskStart : TaskState Unit where
  app := { migrations := Dict.ofList [("m", pendingRecord)] }
  world := ()

/-- A source that refuses the connection, and a destination that refuses `CREATE TABLE`. -/
private def refusing : ManagedProvider Unit :=
  { someProvider with connect := Call.raise ⟨.other, "connection refused"⟩ }

private def readOnly : ManagedProvider Unit :=
  { someProvider with createTable := fun _ => Call.raise ⟨.other, "read only"⟩ }

theorem tellsTruth_iff_some :
    TellsTruth "m" taskStart ((someTask someProvider).runTask "m" 1 taskStart).2 ↔
      ¬ (someTask someProvider).HandlerBroadcasts "m" 1 taskStart ∧
        ¬ (someTask someProvider).TablesFail "m" 1 taskStart :=
  tellsTruth_iff (someTask someProvider) 1 "m" rfl rfl

/-- A refused connection is broadcast twice; failed tables are broadcast as 'completed'. -/
theorem untrue_terminal_events :
    (terminalEvents "m" ((someTask refusing).runTask "m" 1 taskStart).2.events =
      [.failed "connection refused", .failed "connection refused"] ∧
      ¬ TellsTruth "m" taskStart ((someTask refusing).runTask "m" 1 taskStart).2) ∧
    (terminalEvents "m" ((someTask readOnly).runTask "m" 1 taskStart).2.events =
      [.completed { failedTables := ["users"] }] ∧
      ¬ TellsTruth "m" taskStart ((someTask readOnly).runTask "m" 1 taskStart).2) := by
  refine ⟨⟨rfl, not_tellsTruth_twice rfl⟩, rfl, ?_⟩
  have hended : TaskContext.Ended "m" (terminalEvents "m" taskStart.events)
      (.completed { failedTables := ["users"] }) .FAILED
      ((someTask readOnly).runTask "m" 1 taskStart).2 := ⟨rfl, _, rfl, rfl⟩
  exact fun h => absurd ((tellsTruth_completed hended).mp h) (by decide)

end DataBridge
