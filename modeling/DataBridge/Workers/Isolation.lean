import DataBridge.Migration.Related
import DataBridge.Workers.FinalRecord

namespace DataBridge

variable {Cr W α : Type} {migrationId : String}

/-- Between two states only one migration was worked on: no row came or went, no other row changed,
and what was logged and broadcast is its own. -/
structure OnlyTouches (migrationId : String) (s s' : TaskState W) : Prop where
  keys : s'.app.migrations.keys = s.app.migrations.keys
  rows : ∀ id, id ≠ migrationId → s'.app.migrations.get? id = s.app.migrations.get? id
  logs : ∃ added, s'.app.logs = s.app.logs ++ added ∧ ∀ log ∈ added, log.migrationId = migrationId
  events : ∃ sent, s'.events = s.events ++ sent ∧ ∀ e ∈ sent, e.1 = migrationId

theorem OnlyTouches.refl (s : TaskState W) : OnlyTouches migrationId s s :=
  ⟨rfl, fun _ _ => rfl, ⟨[], by simp⟩, ⟨[], by simp⟩⟩

/-- The states are alike for a migration: the same world, its row, its logs and its broadcasts. -/
structure AlikeFor (migrationId : String) (s t : TaskState W) : Prop where
  world : s.world = t.world
  row : s.app.migrations.get? migrationId = t.app.migrations.get? migrationId
  logs : s.app.logs.filter (·.migrationId = migrationId) =
    t.app.logs.filter (·.migrationId = migrationId)
  events : s.events.filter (·.1 = migrationId) = t.events.filter (·.1 = migrationId)

namespace TaskContext

variable (x : TaskContext Cr W)

/-! ## A run changes nothing of another migration -/

section touches

variable {s₀ : TaskState W}

abbrev Stays (migrationId : String) (s₀ : TaskState W) (c : Call Exc (TaskState W) α) : Prop :=
  Call.Keeps (OnlyTouches migrationId s₀) c

theorem stays_outside (c : Call Exc W α) : Stays migrationId s₀ (outside c) := by
  intro s hs
  rw [outside, Call.wp_zoom]
  have hsame : ∀ w, OnlyTouches migrationId s₀ { s with world := w } :=
    fun w => ⟨hs.keys, hs.rows, hs.logs, hs.events⟩
  exact Call.wp_of_forall (fun _ w => hsame w) (fun _ w => hsame w) (fun w => hsame w)

theorem stays_broadcast (event : Event) :
    Stays migrationId s₀ (x.broadcast migrationId event) := by
  refine (stays_outside x.sockets).bind fun _ => Call.keeps_modify fun s hs => ?_
  obtain ⟨sent, hsent, hown⟩ := hs.events
  refine ⟨hs.keys, hs.rows, hs.logs, sent ++ [(migrationId, event)], ?_, ?_⟩
  · rw [hsent, List.append_assoc]
  · intro e he
    rcases List.mem_append.mp he with hold | hnew
    · exact hown e hold
    · rw [List.mem_singleton.mp hnew]

theorem stays_commitMigration (hkey : migrationId ∈ s₀.app.migrations.keys) (record : Migration) :
    Stays migrationId s₀ (x.commitMigration migrationId record) := by
  refine (stays_outside x.appDb).bind fun _ => Call.keeps_modify fun s hs => ?_
  refine ⟨?_, ?_, hs.logs, hs.events⟩
  · have hin : migrationId ∈ s.app.migrations.keys := hs.keys ▸ hkey
    rw [Dict.keys_set, if_pos hin]
    exact hs.keys
  · intro id hid
    rw [Dict.get?_set, if_neg hid]
    exact hs.rows id hid

/-- A row that is found was there at the beginning. -/
theorem wp_selectMigration_key (s : TaskState W) (hs : OnlyTouches migrationId s₀ s) :
    Call.wp (x.selectMigration migrationId)
      ⟨fun found s' => (∀ record, found = some record → migrationId ∈ s₀.app.migrations.keys) ∧
        OnlyTouches migrationId s₀ s', fun _ => OnlyTouches migrationId s₀,
        OnlyTouches migrationId s₀⟩ s := by
  refine Call.wp_seq (stays_outside x.appDb s hs) fun _ s' hs' => ⟨?_, hs'⟩
  intro record hfound
  rw [← hs'.keys]
  exact Dict.mem_keys_of_get? hfound

theorem wp_selectOne_key (s : TaskState W) (hs : OnlyTouches migrationId s₀ s) :
    Call.wp (x.selectOne migrationId)
      ⟨fun _ s' => migrationId ∈ s₀.app.migrations.keys ∧ OnlyTouches migrationId s₀ s',
        fun _ => OnlyTouches migrationId s₀, OnlyTouches migrationId s₀⟩ s := by
  refine Call.wp_seq (x.wp_selectMigration_key s hs) fun found s' h => ?_
  cases found with
  | none => exact h.2
  | some record => exact ⟨h.1 record rfl, h.2⟩

theorem stays_markFailed (error : String) :
    Stays migrationId s₀ (x.markFailed migrationId error) := by
  refine Call.Keeps.bind_of x.wp_selectMigration_key fun found hfound => ?_
  have hwrite : Stays migrationId s₀ (x.writeFailed migrationId error found) := by
    cases found with
    | none => exact Call.keeps_pure ()
    | some record =>
      refine (stays_outside x.now).bind fun now => ?_
      exact x.stays_commitMigration (hfound record rfl) _
  exact hwrite.bind fun _ => x.stays_broadcast _

theorem stays_markRunning : Stays migrationId s₀ (x.markRunning migrationId) := by
  refine Call.Keeps.bind_of x.wp_selectMigration_key fun found hfound => ?_
  cases found with
  | none => exact fun s hs => hs
  | some record =>
    refine (Call.keeps_ofExcept _).bind fun tables => ?_
    refine (Call.keeps_ofExcept _).bind fun migSettings => ?_
    refine (Call.keeps_ofExcept _).bind fun srcCreds => ?_
    refine (Call.keeps_ofExcept _).bind fun dstCreds => ?_
    refine (stays_outside x.now).bind fun now => ?_
    refine (x.stays_commitMigration (hfound record rfl) _).bind fun _ => ?_
    exact Call.keeps_pure _

theorem maintains_stays : x.Maintains (OnlyTouches migrationId s₀) migrationId := by
  refine ⟨stays_outside, ?_, ?_⟩
  · intro plan tableName rows total error
    refine (stays_outside x.elapsed).bind fun elapsed => ?_
    refine Call.Keeps.bind_of x.wp_selectOne_key fun record hkey => ?_
    exact (x.stays_commitMigration hkey _).bind fun _ => x.stays_broadcast _
  · intro level message tableName
    refine (stays_outside x.newUuid).bind fun id => ?_
    refine (stays_outside x.appDb).bind fun _ => ?_
    refine (stays_outside x.now).bind fun createdAt => ?_
    refine Call.Keeps.bind (Call.keeps_modify fun s hs => ?_) fun _ => x.stays_broadcast _
    obtain ⟨added, hadded, hown⟩ := hs.logs
    let log : MigrationLog := { id, migrationId, level, message, tableName, createdAt }
    refine ⟨hs.keys, hs.rows, ⟨added ++ [log], ?_, ?_⟩, hs.events⟩
    · rw [hadded, List.append_assoc]
    · intro entry hlog
      rcases List.mem_append.mp hlog with hold | hnew
      · exact hown entry hold
      · rw [List.mem_singleton.mp hnew]

theorem stays_execute (fuel : Nat) : Stays migrationId s₀ (x.execute fuel migrationId) := by
  refine x.stays_markRunning.bind fun job => ?_
  have hmigrate : Stays migrationId s₀ (x.migrate fuel migrationId job) :=
    x.maintains_stays.migrate fuel job fun exc =>
      (x.stays_markFailed _).bind fun _ => fun s hs => hs
  refine hmigrate.bind fun result => ?_
  have hfinalise : Stays migrationId s₀ (x.finalise migrationId result) := by
    refine Call.Keeps.bind_of x.wp_selectOne_key fun record hkey => ?_
    refine (stays_outside x.now).bind fun now => ?_
    exact x.stays_commitMigration hkey _
  exact hfinalise.bind fun _ => (x.stays_broadcast _).bind fun _ => Call.keeps_pure _

/-- However the task ends, it has worked on its own migration only. -/
theorem celeryTask_onlyTouches (hook : TaskContext Cr W) (fuel : Nat) (s : TaskState W) :
    OnlyTouches migrationId s (x.celeryTask hook fuel migrationId s).2 := by
  have hstart : OnlyTouches migrationId s s := OnlyTouches.refl s
  have hend := Call.keeps_snd (x.stays_execute fuel) hstart
  unfold celeryTask
  split
  · rename_i exc s' hrun
    rw [hrun] at hend
    have hhook : Stays migrationId s (hook.onFailure exc [migrationId]) := by
      unfold onFailure
      split
      · exact Call.keeps_pure ()
      · exact Call.keeps_pure ()
      · rename_i heq
        obtain ⟨rfl, -⟩ := List.cons.inj heq
        exact hook.stays_markFailed exc.text
    exact Call.keeps_snd hhook hend
  · exact hend

end touches

/-! ## A run sees nothing of another migration -/

section alike

open Call (Respects respects_pure respects_modify respects_ofExcept)

abbrev SeesOwn (migrationId : String) (c : Call Exc (TaskState W) α) : Prop :=
  Respects (AlikeFor migrationId) c c

theorem seesOwn_outside (c : Call Exc W α) : SeesOwn migrationId (outside c) := by
  have hself : Respects (W := W) Eq c c := by
    rintro w _ rfl
    exact ⟨rfl, rfl⟩
  refine hself.zoom (fun _ _ h => h.world) ?_
  rintro s t w _ h rfl
  exact ⟨rfl, h.row, h.logs, h.events⟩

theorem seesOwn_broadcast (event : Event) :
    SeesOwn migrationId (x.broadcast migrationId event) := by
  refine (seesOwn_outside x.sockets).bind fun _ => respects_modify fun s t h => ?_
  refine ⟨h.world, h.row, h.logs, ?_⟩
  rw [List.filter_append, List.filter_append, h.events]

theorem seesOwn_selectMigration : SeesOwn migrationId (x.selectMigration migrationId) := by
  refine (seesOwn_outside x.appDb).bind fun _ => ?_
  intro s t h
  exact ⟨congrArg Outcome.returned h.row, h⟩

theorem seesOwn_selectOne : SeesOwn migrationId (x.selectOne migrationId) := by
  refine x.seesOwn_selectMigration.bind fun found => ?_
  cases found with
  | none => exact Call.respects_raise _
  | some record => exact respects_pure record

theorem seesOwn_commitMigration (record : Migration) :
    SeesOwn migrationId (x.commitMigration migrationId record) := by
  refine (seesOwn_outside x.appDb).bind fun _ => respects_modify fun s t h => ?_
  refine ⟨h.world, ?_, h.logs, h.events⟩
  rw [Dict.get?_set, Dict.get?_set, if_pos rfl, if_pos rfl]

theorem seesOwn_markFailed (error : String) :
    SeesOwn migrationId (x.markFailed migrationId error) := by
  refine x.seesOwn_selectMigration.bind fun found => ?_
  have hwrite : SeesOwn migrationId (x.writeFailed migrationId error found) := by
    cases found with
    | none => exact respects_pure ()
    | some record => exact (seesOwn_outside x.now).bind fun now => x.seesOwn_commitMigration _
  exact hwrite.bind fun _ => x.seesOwn_broadcast _

theorem seesOwn_markRunning : SeesOwn migrationId (x.markRunning migrationId) := by
  refine x.seesOwn_selectMigration.bind fun found => ?_
  cases found with
  | none => exact Call.respects_raise _
  | some record =>
    refine (respects_ofExcept _).bind fun tables => ?_
    refine (respects_ofExcept _).bind fun migSettings => ?_
    refine (respects_ofExcept _).bind fun srcCreds => ?_
    refine (respects_ofExcept _).bind fun dstCreds => ?_
    refine (seesOwn_outside x.now).bind fun now => ?_
    exact (x.seesOwn_commitMigration _).bind fun _ => respects_pure _

theorem seesOwn_onProgress (plan : MigrationPlan) (tableName : String) (rows total : Nat)
    (error : Option String) :
    SeesOwn migrationId (x.onProgress migrationId plan tableName rows total error) := by
  refine (seesOwn_outside x.elapsed).bind fun elapsed => ?_
  refine x.seesOwn_selectOne.bind fun record => ?_
  exact (x.seesOwn_commitMigration _).bind fun _ => x.seesOwn_broadcast _

theorem seesOwn_onLog (level message : String) (tableName : Option String) :
    SeesOwn migrationId (x.onLog migrationId level message tableName) := by
  refine (seesOwn_outside x.newUuid).bind fun id => ?_
  refine (seesOwn_outside x.appDb).bind fun _ => ?_
  refine (seesOwn_outside x.now).bind fun createdAt => ?_
  refine Respects.bind (respects_modify fun s t h => ?_) fun _ => x.seesOwn_broadcast _
  refine ⟨h.world, h.row, ?_, h.events⟩
  rw [List.filter_append, List.filter_append, h.logs]

theorem seesOwn_buildPlan (src dst : ManagedProvider W) (tables : List String) :
    SeesOwn migrationId (MigrationPlanner.buildPlan ⟨inTask src, inTask dst, tables⟩) := by
  apply Respects.forEach_mem
  intro t _ plan
  have hread : SeesOwn migrationId
      (MigrationPlanner.readDestination ⟨inTask src, inTask dst, tables⟩ t plan) := by
    refine (seesOwn_outside (dst.tableExists t)).bind fun destExists => ?_
    cases destExists with
    | true =>
      exact ((seesOwn_outside (dst.getTableSchema t)).bind fun _ => respects_pure _).tryExcept
        fun _ => respects_pure _
    | false => exact respects_pure _
  refine Respects.bind (((seesOwn_outside (src.getTableSchema t)).bind
    fun _ => respects_pure _).tryExcept fun _ => respects_pure _) fun srcSchema => ?_
  cases srcSchema with
  | error exc => exact respects_pure _
  | ok schema => exact hread.bind fun _ => respects_pure _

/-- Two states of an executor that are alike for a migration, with the same counter. -/
structure RunsAlike (migrationId : String) (s t : ExecState (TaskState W)) : Prop where
  world : AlikeFor migrationId s.world t.world
  total : s.totalRowsProcessed = t.totalRowsProcessed

theorem runsAlike_await {c : Call Exc (TaskState W) α} (hc : SeesOwn migrationId c) :
    Respects (RunsAlike migrationId) (ExecState.await c) (ExecState.await c) :=
  hc.zoom (fun _ _ h => h.world) fun _ _ _ _ h hw => ⟨hw, h.total⟩

theorem seesOwn_runExecutor (src dst : ManagedProvider W) (migSettings : MigrationSettings)
    (plan : MigrationPlan) (fuel : Nat) : SeesOwn migrationId
      (runExecutor fuel (x.executor migrationId src dst migSettings plan)) := by
  have hlog : ∀ level message table, Respects (RunsAlike migrationId)
      ((x.executor migrationId src dst migSettings plan).log level message table)
      ((x.executor migrationId src dst migSettings plan).log level message table) :=
    fun level message table => runsAlike_await (x.seesOwn_onLog level message table)
  have hread : Respects (RunsAlike (W := W) migrationId)
      (Call.read ExecState.totalRowsProcessed : Call Exc (ExecState (TaskState W)) Nat)
      (Call.read ExecState.totalRowsProcessed) :=
    fun s t h => ⟨congrArg Outcome.returned h.total, h⟩
  have hrun : Respects (RunsAlike migrationId)
      ((x.executor migrationId src dst migSettings plan).run fuel)
      ((x.executor migrationId src dst migSettings plan).run fuel) := by
    refine MigrationExecutor.respects_run rfl rfl (fun tp _ => ?_) hlog (fun _ _ h => h.total) fuel
    exact {
      includeSchema := rfl
      includeData := rfl
      truncate := rfl
      maxRetries := rfl
      createTable := runsAlike_await (seesOwn_outside _)
      truncateTable := runsAlike_await (seesOwn_outside _)
      fetchBatch := fun _ _ => runsAlike_await (seesOwn_outside _)
      insertBatch := fun _ => runsAlike_await (seesOwn_outside _)
      log := hlog
      reportProgress := fun rows => hread.bind fun total =>
        runsAlike_await (x.seesOwn_onProgress plan tp.tableName rows total none)
      sleep := fun _ => runsAlike_await (seesOwn_outside _)
      addRows := fun count _ _ h => ⟨h.world, congrArg (· + count) h.total⟩ }
  exact hrun.zoom (fun _ _ h => ⟨h, rfl⟩) fun _ _ _ _ _ h => h.world

theorem seesOwn_connected (p : ManagedProvider W) {body : Call Exc (TaskState W) α}
    (hbody : SeesOwn migrationId body) : SeesOwn migrationId (connected p body) :=
  (seesOwn_outside p.connect).bind fun _ => hbody.tryFinally (seesOwn_outside p.disconnect)

theorem seesOwn_migrate (fuel : Nat) (job : Job Cr) :
    SeesOwn migrationId (x.migrate fuel migrationId job) := by
  rw [migrate_eq]
  refine (respects_ofExcept _).bind fun p => Respects.tryExcept ?_ fun exc => ?_
  · refine seesOwn_connected p.1 (seesOwn_connected p.2 ?_)
    refine (seesOwn_buildPlan p.1 p.2 job.tables).bind fun plan => ?_
    exact x.seesOwn_runExecutor p.1 p.2 job.migSettings plan fuel
  · exact (x.seesOwn_markFailed _).bind fun _ => Call.respects_raise exc

theorem seesOwn_execute (fuel : Nat) : SeesOwn migrationId (x.execute fuel migrationId) := by
  have hfinalise : ∀ result, SeesOwn migrationId (x.finalise migrationId result) := by
    intro result
    refine x.seesOwn_selectOne.bind fun record => ?_
    exact (seesOwn_outside x.now).bind fun now => x.seesOwn_commitMigration _
  refine x.seesOwn_markRunning.bind fun job => (x.seesOwn_migrate fuel job).bind fun result => ?_
  exact (hfinalise result).bind fun _ => (x.seesOwn_broadcast _).bind fun _ => respects_pure _

theorem seesOwn_celeryTask (hook : TaskContext Cr W) (fuel : Nat) :
    SeesOwn migrationId (x.celeryTask hook fuel migrationId) := by
  have hhook : ∀ exc, SeesOwn migrationId (hook.onFailure exc [migrationId]) := by
    intro exc
    unfold onFailure
    split
    · exact respects_pure ()
    · exact respects_pure ()
    · rename_i heq
      obtain ⟨rfl, -⟩ := List.cons.inj heq
      exact hook.seesOwn_markFailed exc.text
  intro s t h
  obtain ⟨outcome, s', t', hs, ht, halike⟩ := (x.seesOwn_execute fuel).ends h
  rw [celeryTask, celeryTask, hs, ht]
  cases outcome with
  | raised exc => exact ⟨rfl, (hhook exc s' t' halike).2⟩
  | returned result => exact ⟨rfl, halike⟩
  | exhausted => exact ⟨rfl, halike⟩

/-- However a task of one migration ends, it changed nothing of any other, and in a state that is
alike for its own migration, whatever the others are, it ends the same way. -/
theorem celeryTask_isolated (hook : TaskContext Cr W) (fuel : Nat) (s : TaskState W) :
    OnlyTouches migrationId s (x.celeryTask hook fuel migrationId s).2 ∧
      ∀ t, AlikeFor migrationId s t →
        (x.celeryTask hook fuel migrationId s).1 = (x.celeryTask hook fuel migrationId t).1 ∧
          AlikeFor migrationId (x.celeryTask hook fuel migrationId s).2
            (x.celeryTask hook fuel migrationId t).2 :=
  ⟨x.celeryTask_onlyTouches hook fuel s, fun t h => x.seesOwn_celeryTask hook fuel s t h⟩

end alike

end TaskContext

end DataBridge
