import DataBridge.Migration.LoggedRun
import DataBridge.Workers.FinalRecord

namespace DataBridge

/-- The line of a broadcast, if it is one of the log. -/
def Event.line? : Event → Option LogLine
  | .log level message table => some ⟨level, message, table⟩
  | _ => none

def MigrationLog.line (row : MigrationLog) : LogLine := ⟨row.level, row.message, row.tableName⟩

/-- The lines of a migration in the table `migration_logs`. -/
def loggedLines (migrationId : String) (logs : List MigrationLog) : List LogLine :=
  (logs.filter fun row => row.migrationId = migrationId).map MigrationLog.line

/-- The lines that were broadcast for a migration. -/
def liveLines (migrationId : String) (events : List (String × Event)) : List LogLine :=
  (events.filter fun e => e.1 = migrationId).filterMap fun e => e.2.line?

namespace TaskContext

variable {Cr W α : Type} (x : TaskContext Cr W) {migrationId : String}

section invariant

/-- A property of the log rows and of the broadcasts. -/
def OfLogs (I : List MigrationLog → List (String × Event) → Prop) (s : TaskState W) : Prop :=
  I s.app.logs s.events

/-- A broadcast that is not one of the log does not matter to the property. -/
def IgnoresOthers (I : List MigrationLog → List (String × Event) → Prop) (migrationId : String) :
    Prop :=
  ∀ logs events (event : Event), event.line? = none → I logs events →
    I logs (events ++ [(migrationId, event)])

/-- A run keeps the property if its log calls do. -/
structure LogInvariant (I : List MigrationLog → List (String × Event) → Prop)
    (x : TaskContext Cr W) (migrationId : String) : Prop where
  ignoresOthers : IgnoresOthers I migrationId
  onLog : ∀ level message table,
    Call.Keeps (OfLogs I) (x.onLog migrationId level message table)

variable {x} {I : List MigrationLog → List (String × Event) → Prop}

theorem keepsLogs_outside (c : Call Exc W α) : Call.Keeps (OfLogs I) (outside c) := by
  intro s hs
  rw [outside, Call.wp_zoom]
  exact Call.wp_of_forall (fun _ _ => hs) (fun _ _ => hs) (fun _ => hs)

theorem keepsLogs_selectMigration : Call.Keeps (OfLogs I) (x.selectMigration migrationId) :=
  (keepsLogs_outside x.appDb).bind fun _ => Call.keeps_read _

theorem keepsLogs_selectOne : Call.Keeps (OfLogs I) (x.selectOne migrationId) := by
  apply keepsLogs_selectMigration.bind
  intro found
  cases found with
  | none => exact Call.keeps_ofExcept (.error _)
  | some record => exact Call.keeps_pure record

theorem keepsLogs_commitMigration (record : Migration) :
    Call.Keeps (OfLogs I) (x.commitMigration migrationId record) :=
  (keepsLogs_outside x.appDb).bind fun _ => Call.keeps_modify fun _ hs => hs

theorem keepsLogs_markRunning : Call.Keeps (OfLogs I) (x.markRunning migrationId) := by
  refine keepsLogs_selectMigration.bind fun found => ?_
  cases found with
  | none => exact Call.keeps_ofExcept (.error _)
  | some record =>
    refine (Call.keeps_ofExcept _).bind fun tables => ?_
    refine (Call.keeps_ofExcept _).bind fun migSettings => ?_
    refine (Call.keeps_ofExcept _).bind fun srcCreds => ?_
    refine (Call.keeps_ofExcept _).bind fun dstCreds => ?_
    refine (keepsLogs_outside x.now).bind fun now => ?_
    exact (keepsLogs_commitMigration _).bind fun _ => Call.keeps_pure _

theorem keepsLogs_finalise (result : ExecResult) :
    Call.Keeps (OfLogs I) (x.finalise migrationId result) := by
  refine keepsLogs_selectOne.bind fun record => ?_
  exact (keepsLogs_outside x.now).bind fun now => keepsLogs_commitMigration _

theorem IgnoresOthers.keeps_broadcast (h : IgnoresOthers I migrationId) {event : Event}
    (hevent : event.line? = none) : Call.Keeps (OfLogs I) (x.broadcast migrationId event) :=
  (keepsLogs_outside x.sockets).bind fun _ =>
    Call.keeps_modify fun s hs => h s.app.logs s.events event hevent hs

theorem IgnoresOthers.keeps_markFailed (h : IgnoresOthers I migrationId) (error : String) :
    Call.Keeps (OfLogs I) (x.markFailed migrationId error) := by
  refine keepsLogs_selectMigration.bind fun found => ?_
  have hwrite : Call.Keeps (OfLogs I) (x.writeFailed migrationId error found) := by
    cases found with
    | none => exact Call.keeps_pure ()
    | some record =>
      exact (keepsLogs_outside x.now).bind fun now => keepsLogs_commitMigration _
  exact hwrite.bind fun _ => h.keeps_broadcast rfl

section task

variable (h : LogInvariant I x migrationId)
include h

theorem LogInvariant.maintains : x.Maintains (OfLogs I) migrationId where
  outside := keepsLogs_outside
  onProgress plan tableName rows total error := by
    refine (keepsLogs_outside x.elapsed).bind fun elapsed => ?_
    refine keepsLogs_selectOne.bind fun record => ?_
    exact (keepsLogs_commitMigration _).bind fun _ => h.ignoresOthers.keeps_broadcast rfl
  onLog := h.onLog

theorem LogInvariant.keeps_execute (fuel : Nat) :
    Call.Keeps (OfLogs I) (x.execute fuel migrationId) := by
  refine keepsLogs_markRunning.bind fun job => ?_
  have hmigrate : Call.Keeps (OfLogs I) (x.migrate fuel migrationId job) :=
    h.maintains.migrate fuel job fun exc =>
      (h.ignoresOthers.keeps_markFailed _).bind fun _ => Call.keeps_ofExcept (.error exc)
  refine hmigrate.bind fun result => ?_
  refine (keepsLogs_finalise result).bind fun _ => ?_
  exact (h.ignoresOthers.keeps_broadcast rfl).bind fun _ => Call.keeps_pure _

end task

/-- The hook of a failed task only marks it. -/
theorem LogInvariant.celeryTask (h : LogInvariant I x migrationId) (hook : TaskContext Cr W)
    (fuel : Nat) {s : TaskState W} (hs : OfLogs I s) :
    OfLogs I (x.celeryTask hook fuel migrationId s).2 := by
  have hend := Call.keeps_snd (h.keeps_execute fuel) hs
  unfold TaskContext.celeryTask
  split
  · rename_i exc s' hrun
    rw [hrun] at hend
    have hkeeps : Call.Keeps (OfLogs I) (hook.onFailure exc [migrationId]) := by
      unfold onFailure
      split
      · exact Call.keeps_pure ()
      · exact Call.keeps_pure ()
      · rename_i heq
        obtain ⟨rfl, -⟩ := List.cons.inj heq
        exact h.ignoresOthers.keeps_markFailed exc.text
    exact Call.keeps_snd hkeeps hend
  · exact hend

end invariant

/-! ## The log of a run accounts for its result -/

theorem loggedLines_own (logs : List MigrationLog) (id level message : String)
    (tableName : Option String) (createdAt : Nat) :
    loggedLines migrationId (logs ++ [⟨id, migrationId, level, message, tableName, createdAt⟩]) =
      loggedLines migrationId logs ++ [⟨level, message, tableName⟩] := by
  simp [loggedLines, MigrationLog.line]

theorem keepsLogs_broadcast (P : List MigrationLog → Prop) (event : Event) :
    Call.Keeps (OfLogs fun logs _ => P logs) (x.broadcast migrationId event) :=
  (keepsLogs_outside x.sockets).bind fun _ => Call.keeps_modify fun _ hs => hs

/-- What is in the log stays there. -/
theorem keptLines (P : LogLine → Prop) :
    LogInvariant (fun logs _ => ∀ line, P line → line ∈ loggedLines migrationId logs) x
      migrationId where
  ignoresOthers _ _ _ _ h := h
  onLog level message table := by
    refine (keepsLogs_outside x.newUuid).bind fun id => ?_
    refine (keepsLogs_outside x.appDb).bind fun _ => ?_
    refine (keepsLogs_outside x.now).bind fun createdAt => ?_
    refine Call.Keeps.bind (Call.keeps_modify fun s hs line hline => ?_) fun _ => ?_
    · dsimp only
      rw [loggedLines_own]
      exact List.mem_append_left _ (hs line hline)
    · exact x.keepsLogs_broadcast
        (fun logs => ∀ line, P line → line ∈ loggedLines migrationId logs) _

/-- The line is in the log of the migration. -/
abbrev InLog (migrationId : String) (line : LogLine) (s : TaskState W) : Prop :=
  line ∈ loggedLines migrationId s.app.logs

theorem wp_onLog (level message : String) (table : Option String) (s : TaskState W) :
    Call.wp (x.onLog migrationId level message table)
      (Post.onReturn fun _ => InLog migrationId ⟨level, message, table⟩) s := by
  apply Call.wp_bind_any
  intro id s₁
  apply Call.wp_bind_any
  intro _ s₂
  apply Call.wp_bind_any
  intro createdAt s₃
  have hadd : Call.wp (Call.modify fun s : TaskState W => { s with app := { s.app with
      logs := s.app.logs ++ [⟨id, migrationId, level, message, table, createdAt⟩] } } :
        Call Exc (TaskState W) Unit)
      (Post.onReturn fun _ => InLog migrationId ⟨level, message, table⟩) s₃ := by
    change _ ∈ loggedLines migrationId (s₃.app.logs ++ [_])
    rw [loggedLines_own]
    exact List.mem_append_right _ (List.mem_singleton_self _)
  refine Call.wp_seq hadd fun _ s₄ h₄ => ?_
  exact Call.wp_onReturn (x.keepsLogs_broadcast
    (fun logs => (⟨level, message, table⟩ : LogLine) ∈ loggedLines migrationId logs) _ s₄ h₄)

theorem logs_executor (src dst : ManagedProvider W) (settings : MigrationSettings)
    (plan : MigrationPlan) :
    (x.executor migrationId src dst settings plan).Logs (InLog migrationId) where
  keeps P := (x.keptLines P).maintains.executor src dst settings plan
  onLog := ⟨x.onLog migrationId, rfl, fun level message table w => x.wp_onLog level message table w⟩

/-- The log of the migration accounts for the result. -/
abbrev LogAccounts (migrationId : String) (result : ExecResult) (s : TaskState W) : Prop :=
  MigrationExecutor.Accounts (InLog migrationId) result result.totalRowsMigrated s

/-- What the log accounts for, it accounts for ever after. -/
theorem logAccounts_kept {c : Call Exc (TaskState W) α} {result : ExecResult} {s : TaskState W}
    (hc : ∀ P : LogLine → Prop, Call.Keeps (OfLogs fun logs _ =>
      ∀ line, P line → line ∈ loggedLines migrationId logs) c)
    (h : LogAccounts migrationId result s) :
    Call.wp c ⟨fun _ => LogAccounts migrationId result, fun _ => LogAccounts migrationId result,
      LogAccounts migrationId result⟩ s := by
  have hkept := hc (fun line => InLog migrationId line s) s fun _ hline => hline
  exact Call.wp_mono hkept (fun _ _ hl => h.mono hl) (fun _ _ hl => h.mono hl) (fun _ hl => h.mono hl)

theorem wp_planAndRun_logged (fuel : Nat) (job : Job Cr) (src dst : ManagedProvider W)
    (s : TaskState W) :
    Call.wp (x.planAndRun fuel migrationId job src dst)
      (Post.onReturn (LogAccounts migrationId)) s := by
  apply Call.wp_bind_any
  intro plan s₁
  rw [runExecutor, Call.wp_zoom]
  exact Call.wp_mono ((x.logs_executor src dst job.migSettings plan).wp_run fuel rfl)
    (fun _ _ h => h) (fun _ _ _ => trivial) (fun _ _ => trivial)

theorem wp_connected_logged (p : ManagedProvider W) {body : Call Exc (TaskState W) ExecResult}
    (hbody : ∀ s, Call.wp body (Post.onReturn (LogAccounts migrationId)) s) (s : TaskState W) :
    Call.wp (connected p body) (Post.onReturn (LogAccounts migrationId)) s := by
  apply Call.wp_bind_any
  intro _ s₁
  rw [Call.wp_tryFinally]
  refine Call.wp_mono (hbody s₁) ?_ ?_ (fun _ _ => trivial)
  · intro result s₂ h₂
    exact Call.wp_onReturn (logAccounts_kept (fun P => keepsLogs_outside p.disconnect) h₂)
  · exact fun _ s₂ _ => Call.wp_of_forall (fun _ _ => trivial) (fun _ _ => trivial) (fun _ => trivial)

theorem wp_migrate_logged (fuel : Nat) (job : Job Cr) (s : TaskState W) :
    Call.wp (x.migrate fuel migrationId job) (Post.onReturn (LogAccounts migrationId)) s := by
  rw [migrate_eq]
  apply Call.wp_bind_any
  intro p s₁
  have hrun : Call.wp (x.tryBody migrationId fuel job p) (Post.onReturn (LogAccounts migrationId)) s₁ :=
    wp_connected_logged p.1 (wp_connected_logged p.2 (x.wp_planAndRun_logged fuel job p.1 p.2)) s₁
  rw [Call.wp_tryExcept]
  refine Call.wp_mono hrun (fun _ _ h => h) ?_ (fun _ h => h)
  exact fun exc s₂ _ => Call.wp_bind_any fun _ _ => trivial

/-- When a run returns, whatever failed in it, the log of its migration accounts for its result: each
completed table with its rows, which add up to the rows of the record if no table failed, each
skipped table, and an error of each failed one. -/
theorem execute_log_accounts {fuel : Nat} {s s' : TaskState W} {result : ExecResult}
    (h : x.execute fuel migrationId s = (.returned result, s')) :
    LogAccounts migrationId result s' ∧
      ∃ record, s'.app.migrations.get? migrationId = some record ∧
        record.processedRows = result.totalRowsMigrated := by
  have hlog : Call.wp (x.execute fuel migrationId) (Post.onReturn (LogAccounts migrationId)) s := by
    apply Call.wp_bind_any
    intro job s₁
    refine Call.wp_seq (x.wp_migrate_logged fuel job s₁) fun result s₂ h₂ => ?_
    have hfinal := logAccounts_kept (c := x.finalise migrationId result)
      (fun P => keepsLogs_finalise result) h₂
    refine Call.wp_seq (Call.wp_onReturn hfinal) fun _ s₃ h₃ => ?_
    have hsent := logAccounts_kept (c := x.broadcast migrationId (.completed result))
      (fun P => (x.keptLines P).ignoresOthers.keeps_broadcast rfl) h₃
    exact Call.wp_seq (Call.wp_onReturn hsent) fun _ s₄ h₄ => h₄
  obtain ⟨record, now, hrow⟩ := Call.wp_of_returned (x.wp_execute_final fuel s) h
  exact ⟨Call.wp_of_returned hlog h, finalRecord record result now, hrow, rfl⟩

/-- A source with one row in each table, and a destination that does not take the users. -/
private def refusingUsers : ManagedProvider Unit where
  getTableSchema t := pure { name := t, columns := [{ name := "id", dataType := "INTEGER" }] }
  tableExists _ := pure false
  fetchBatch _ offset _ _ := pure (if offset = 0 then [Dict.ofList [("id", .int 7)]] else [])
  createTable schema :=
    if schema.name = "users" then Call.raise ⟨.other, "permission denied"⟩ else pure ()
  insertBatch _ rows _ := pure rows.length
  truncateTable _ := pure ()

private def usersLast : TaskContext Unit Unit where
  loadsTables _ := .ok ["orders", "users"]
  loadsSettings _ := .ok { maxRetries := 0 }
  decryptCredentials _ := .ok ()
  databaseType _ := some "sqlite"
  getProvider _ _ := .ok refusingUsers
  now := pure 0
  elapsed := pure 1
  newUuid := pure "id"

private def usersState : TaskState Unit where
  app := { migrations := Dict.ofList [("m", {
    sourceConnection := "old.db", destinationConnection := "new.db" })] }
  world := ()

/-- The log closes the orders with their row, and blames the users. -/
theorem execute_log_accounts_usersLast :
    ∃ s', usersLast.execute 2 "m" usersState = (.returned
        { completedTables := ["orders"], failedTables := ["users"], totalRowsMigrated := 1 }, s') ∧
      (∃ counts, List.Forall₂ (MigrationExecutor.ClosedWith (InLog "m") s') ["orders"] counts) ∧
      MigrationExecutor.Blamed (InLog "m") s' "users" := by
  have hrun : ∃ s', usersLast.execute 2 "m" usersState = (.returned
      { completedTables := ["orders"], failedTables := ["users"], totalRowsMigrated := 1 }, s') :=
    ⟨_, rfl⟩
  obtain ⟨s', hs'⟩ := hrun
  obtain ⟨haccounts, -⟩ := usersLast.execute_log_accounts hs'
  obtain ⟨counts, hclosed, -, -⟩ := haccounts.completed
  exact ⟨s', hs', ⟨counts, hclosed⟩, haccounts.failed "users" (by simp)⟩

/-! ## The live log -/

/-- Every broadcast gets through to the connection manager. -/
def SocketsReturn : Prop := ∀ w, ∃ w', x.sockets w = (.returned (), w')

/-- Of the lines logged since `logs₀`, the live ones since `events₀` are some in their order, and all
of them if `all` holds. -/
def LiveSince (migrationId : String) (all : Prop) (logs₀ : List MigrationLog)
    (events₀ : List (String × Event)) (logs : List MigrationLog) (events : List (String × Event)) :
    Prop :=
  ∃ logged live, loggedLines migrationId logs = loggedLines migrationId logs₀ ++ logged ∧
    liveLines migrationId events = liveLines migrationId events₀ ++ live ∧
    live.Sublist logged ∧ (all → live = logged)

theorem liveLines_own (events : List (String × Event)) (event : Event) :
    liveLines migrationId (events ++ [(migrationId, event)]) =
      liveLines migrationId events ++ event.line?.toList := by
  cases hline : event.line? with
  | none => simp [liveLines, hline]
  | some line => simp [liveLines, hline]

variable {x} {all : Prop} {logs₀ logs : List MigrationLog} {events₀ events : List (String × Event)}

theorem liveSince_ignoresOthers :
    IgnoresOthers (LiveSince migrationId all logs₀ events₀) migrationId := by
  intro logs events event hevent h
  obtain ⟨logged, live, hlogs, hevents, hsublist, hall⟩ := h
  refine ⟨logged, live, hlogs, ?_, hsublist, hall⟩
  rw [liveLines_own, hevent, hevents]
  simp

/-- The broadcast of a line that was just logged. -/
theorem wp_broadcast_live (hall : all → x.SocketsReturn) (level message : String)
    (table : Option String) {logged live : List LogLine} {s : TaskState W}
    (hlogs : loggedLines migrationId s.app.logs =
      loggedLines migrationId logs₀ ++ (logged ++ [⟨level, message, table⟩]))
    (hevents : liveLines migrationId s.events = liveLines migrationId events₀ ++ live)
    (hsublist : live.Sublist logged) (hlive : all → live = logged) :
    Call.wp (x.broadcast migrationId (.log level message table))
      ⟨fun _ => OfLogs (LiveSince migrationId all logs₀ events₀),
        fun _ => OfLogs (LiveSince migrationId all logs₀ events₀),
        OfLogs (LiveSince migrationId all logs₀ events₀)⟩ s := by
  have hskipped : ∀ o w', (∀ u : Unit, o ≠ .returned u) → x.sockets s.world = (o, w') →
      OfLogs (LiveSince migrationId all logs₀ events₀) { s with world := w' } := by
    intro o w' hends hrun
    refine ⟨_, live, hlogs, hevents, hsublist.trans (List.sublist_append_left _ _), ?_⟩
    intro h
    obtain ⟨w'', hreturns⟩ := hall h s.world
    rw [hreturns] at hrun
    exact absurd (Prod.ext_iff.mp hrun).1.symm (hends ())
  rw [broadcast, outside, Call.wp_bind, Call.wp_zoom]
  refine Call.wp_mono (Call.wp_self x.sockets s.world) ?_ ?_ ?_
  · intro _ w' _
    refine ⟨_, live ++ [⟨level, message, table⟩], hlogs, ?_, hsublist.append (.refl _), ?_⟩
    · dsimp only
      rw [liveLines_own, hevents, List.append_assoc]
      rfl
    · intro h
      rw [hlive h]
  · exact fun exc w' hrun => hskipped (.raised exc) w' (fun _ h => by cases h) hrun
  · exact fun w' hrun => hskipped .exhausted w' (fun _ h => by cases h) hrun

theorem liveSince_invariant (hall : all → x.SocketsReturn) :
    LogInvariant (LiveSince migrationId all logs₀ events₀) x migrationId where
  ignoresOthers := liveSince_ignoresOthers
  onLog level message table := by
    refine (keepsLogs_outside x.newUuid).bind fun id => ?_
    refine (keepsLogs_outside x.appDb).bind fun _ => ?_
    refine (keepsLogs_outside x.now).bind fun createdAt => ?_
    intro s hs
    obtain ⟨logged, live, hlogs, hevents, hsublist, hlive⟩ := hs
    rw [Call.wp_bind]
    refine wp_broadcast_live hall level message table ?_ hevents hsublist hlive
    dsimp only
    rw [loggedLines_own, hlogs, List.append_assoc]

/-- However a task ends, the log lines that its clients were sent are lines of its log, in the order
of the log; if every broadcast gets through, they are all of them. -/
theorem celeryTask_live_log (x hook : TaskContext Cr W) (fuel : Nat) (migrationId : String)
    (s : TaskState W) :
    ∃ logged live,
      loggedLines migrationId (x.celeryTask hook fuel migrationId s).2.app.logs =
        loggedLines migrationId s.app.logs ++ logged ∧
      liveLines migrationId (x.celeryTask hook fuel migrationId s).2.events =
        liveLines migrationId s.events ++ live ∧
      live.Sublist logged ∧ (x.SocketsReturn → live = logged) := by
  have hstart : OfLogs (LiveSince migrationId x.SocketsReturn s.app.logs s.events) s :=
    ⟨[], [], by simp, by simp, .refl _, fun _ => rfl⟩
  exact (liveSince_invariant id).celeryTask hook fuel hstart

end TaskContext

end DataBridge
