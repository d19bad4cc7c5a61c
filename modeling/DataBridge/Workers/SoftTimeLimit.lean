import DataBridge.Framework.RaisesOnly
import DataBridge.Migration.StaticSource
import DataBridge.Migration.Traced
import DataBridge.Workers.TaskFrame

namespace DataBridge

open Call (RaisesOnly raisesOnly_pure raisesOnly_tryExcept)

/-- Every exception but celery's `SoftTimeLimitExceeded`. -/
def OtherExc (exc : Exc) : Prop := exc.kind ≠ .softTimeLimitExceeded

theorem coerce_otherExc {value : Value} {destType : String} {exc : Exc}
    (h : coerce value destType = .error exc) : OtherExc exc := by
  unfold coerce at h
  split at h
  · cases h
  · dsimp only at h
    split at h
    · split at h <;> cases h
    · split at h
      · split at h
        · rename_i f _
          cases f <;> cases h <;> exact fun hk => (by cases hk)
        · cases h
      · split at h
        · split at h
          · cases h
          · cases h
            exact fun hk => (by cases hk)
          · cases h
        · cases h

theorem transform_otherExc {mappings : List ColumnMapping} {batch : List Row} {exc : Exc}
    (h : MigrationExecutor.transform mappings batch = .error exc) : OtherExc exc := by
  rw [MigrationExecutor.transform] at h
  split at h
  · cases h
  · obtain ⟨row, -, hrow⟩ := ExceptList.mapM_error h
    obtain ⟨m, -, acc, hstep⟩ := ExceptList.foldlM_error hrow
    rcases ExceptList.bind_error_iff.mp hstep with hvalue | ⟨_, _, hset⟩
    · exact coerce_otherExc hvalue
    · cases hset

namespace MigrationExecutor

variable {W : Type} {P : Exc → Prop} {x : MigrationExecutor W}

/-- What only reports or waits raises exceptions in `P`. -/
structure ReportsRaise (P : Exc → Prop) (x : MigrationExecutor W) : Prop where
  onProgress : ∀ f, x.onProgress = some f → ∀ t rows total error, RaisesOnly P (f t rows total error)
  onLog : ∀ f, x.onLog = some f → ∀ level message t, RaisesOnly P (f level message t)
  sleep : ∀ seconds, RaisesOnly P (x.sleep seconds)

section reports

variable (h : x.ReportsRaise P)
include h

theorem ReportsRaise.log (level message : String) (table : Option String) :
    RaisesOnly P (x.log level message table) := by
  rw [MigrationExecutor.log]
  cases honLog : x.onLog with
  | none => exact raisesOnly_pure ()
  | some f => exact (h.onLog f honLog level message table).zoom

theorem ReportsRaise.reportProgress (table : String) (rows : Nat) :
    RaisesOnly P (x.reportProgress table rows) := by
  rw [MigrationExecutor.reportProgress]
  cases hprogress : x.onProgress with
  | none => exact raisesOnly_pure ()
  | some f =>
    exact (Call.raisesOnly_read _).bind fun total => (h.onProgress f hprogress _ _ _ _).zoom

theorem ReportsRaise.logAndBackOff {α : Type} (level message : String) (table : Option String)
    (again : Bool) (seconds : Nat) : RaisesOnly P (do
      x.log level message table
      x.backOff again seconds
      pure (none : Option α)) := by
  refine (h.log _ _ _).bind fun _ => ?_
  have hsleep : RaisesOnly P (ExecState.await (x.sleep seconds)) := (h.sleep seconds).zoom
  have hwait : RaisesOnly P (x.backOff again seconds) := by
    cases again with
    | true => exact hsleep
    | false => exact raisesOnly_pure ()
  exact hwait.bind fun _ => raisesOnly_pure none

/-- Every provider call stands in a `try` of its own. -/
theorem ReportsRaise.migrateTable
    (htransform : ∀ mappings batch exc, transform mappings batch = .error exc → P exc)
    (fuel : Nat) (tp : MigrationTablePlan) : RaisesOnly P (x.migrateTable fuel tp) := by
  have hensure : RaisesOnly P (x.ensureTable tp) := by
    rw [ensureTable]
    split
    · exact raisesOnly_tryExcept _ fun exc => (h.log _ _ _).bind fun _ => raisesOnly_pure false
    · exact raisesOnly_pure true
  have hclear : RaisesOnly P (x.clearTable tp) := by
    rw [clearTable]
    split
    · exact raisesOnly_tryExcept _ fun exc => h.log _ _ _
    · exact raisesOnly_pure ()
  have hinsert : ∀ rows, RaisesOnly P (x.insertWithRetry tp.tableName rows) := by
    intro rows
    have hattempt : ∀ i, RaisesOnly P (x.insertAttempt tp.tableName rows i) := fun i =>
      raisesOnly_tryExcept _ fun exc => h.logAndBackOff _ _ _ _ _
    refine (RaisesOnly.forRange hattempt _ _).bind fun r => ?_
    cases r with
    | some ok => exact raisesOnly_pure ok
    | none => exact (h.log _ _ _).bind fun _ => raisesOnly_pure false
  have hpass : ∀ v, RaisesOnly P (x.copyPass tp v) := by
    intro v
    have hfetch : RaisesOnly P (x.fetchAttempt tp v) :=
      raisesOnly_tryExcept _ fun exc => h.logAndBackOff _ _ _ _ _
    refine hfetch.bind fun r => ?_
    cases r with
    | none =>
      dsimp only
      split
      · exact raisesOnly_pure _
      · exact raisesOnly_pure _
    | some batch =>
      cases batch with
      | nil => exact (h.log _ _ _).bind fun _ => raisesOnly_pure _
      | cons row rest =>
        refine (Call.raisesOnly_ofExcept (htransform _ _)).bind fun rows => ?_
        refine (hinsert rows).bind fun insertOk => ?_
        cases insertOk with
        | false => exact raisesOnly_pure _
        | true =>
          exact (Call.raisesOnly_modify _).bind fun _ => (h.reportProgress _ _).bind fun _ =>
            raisesOnly_pure _
  refine (h.log _ _ _).bind fun _ => hensure.bind fun created => ?_
  cases created with
  | false => exact raisesOnly_pure false
  | true =>
    refine hclear.bind fun _ => ?_
    split
    · exact RaisesOnly.loop hpass fuel {}
    · exact (h.log _ _ _).bind fun _ => raisesOnly_pure true

/-- A run raises only what its reports, its waits and the transform raise. -/
theorem ReportsRaise.run
    (htransform : ∀ mappings batch exc, transform mappings batch = .error exc → P exc)
    (fuel : Nat) : RaisesOnly P (x.run fuel) := by
  refine (RaisesOnly.forEach ?_ _ _).bind fun results =>
    (Call.raisesOnly_read _).bind fun total => raisesOnly_pure _
  intro results tp
  rw [runTable]
  split
  · exact (h.log _ _ _).bind fun _ => raisesOnly_pure _
  · exact (h.migrateTable htransform fuel tp).bind fun success => raisesOnly_pure _

end reports

end MigrationExecutor

variable {Cr W : Type}

/-- A task whose providers note the executor's calls, where the soft time limit surfaces in these
calls and nowhere else. -/
structure LimitedTask (Cr W : Type) extends TaskContext Cr (Traced W) where
  recorded : ∀ databaseType creds p, getProvider databaseType creds = .ok p →
    ∃ q : BaseDatabaseProvider W, p.toBaseDatabaseProvider = Traced.provider q
  loadsTables_raises : ∀ text exc, loadsTables text = .error exc → OtherExc exc
  loadsSettings_raises : ∀ text exc, loadsSettings text = .error exc → OtherExc exc
  decryptCredentials_raises : ∀ text exc, decryptCredentials text = .error exc → OtherExc exc
  getProvider_raises : ∀ databaseType creds exc,
    getProvider databaseType creds = .error exc → OtherExc exc
  appDb_raises : RaisesOnly OtherExc appDb
  sockets_raises : RaisesOnly OtherExc sockets
  now_raises : RaisesOnly OtherExc now
  elapsed_raises : RaisesOnly OtherExc elapsed
  newUuid_raises : RaisesOnly OtherExc newUuid
  sleep_raises : ∀ seconds, RaisesOnly OtherExc (sleep seconds)
  connect_raises : ∀ databaseType creds p, getProvider databaseType creds = .ok p →
    RaisesOnly OtherExc p.connect ∧ RaisesOnly OtherExc p.disconnect
  tableExists_raises : ∀ databaseType creds p, getProvider databaseType creds = .ok p →
    ∀ t, RaisesOnly OtherExc (p.tableExists t)

namespace LimitedTask

open TaskContext (outside)

variable (x : LimitedTask Cr W) (migrationId : String)

theorem raises_outside {α : Type} {c : Call Exc (Traced W) α} (h : RaisesOnly OtherExc c) :
    RaisesOnly OtherExc (outside c) := h.zoom

theorem raises_selectMigration : RaisesOnly OtherExc (x.selectMigration migrationId) :=
  (raises_outside x.appDb_raises).bind fun _ => Call.raisesOnly_read _

theorem raises_selectOne : RaisesOnly OtherExc (x.selectOne migrationId) := by
  refine (x.raises_selectMigration migrationId).bind fun found => ?_
  cases found with
  | none => exact Call.raisesOnly_raise fun hk => (by cases hk)
  | some record => exact raisesOnly_pure record

theorem raises_commit (record : Migration) :
    RaisesOnly OtherExc (x.commitMigration migrationId record) :=
  (raises_outside x.appDb_raises).bind fun _ => Call.raisesOnly_modify _

theorem raises_broadcast (event : Event) :
    RaisesOnly OtherExc (x.broadcast migrationId event) :=
  (raises_outside x.sockets_raises).bind fun _ => Call.raisesOnly_modify _

theorem raises_markFailed (error : String) :
    RaisesOnly OtherExc (x.markFailed migrationId error) := by
  refine (x.raises_selectMigration migrationId).bind fun found => ?_
  have hwrite : RaisesOnly OtherExc (x.writeFailed migrationId error found) := by
    cases found with
    | none => exact raisesOnly_pure ()
    | some record =>
      exact (raises_outside x.now_raises).bind fun now => x.raises_commit migrationId _
  exact hwrite.bind fun _ => x.raises_broadcast migrationId _

theorem raises_markRunning : RaisesOnly OtherExc (x.markRunning migrationId) := by
  refine (x.raises_selectMigration migrationId).bind fun found => ?_
  cases found with
  | none => exact Call.raisesOnly_raise fun hk => (by cases hk)
  | some record =>
    refine (Call.raisesOnly_ofExcept (x.loadsTables_raises _)).bind fun tables => ?_
    refine (Call.raisesOnly_ofExcept (x.loadsSettings_raises _)).bind fun migSettings => ?_
    refine (Call.raisesOnly_ofExcept (x.decryptCredentials_raises _)).bind fun srcCreds => ?_
    refine (Call.raisesOnly_ofExcept (x.decryptCredentials_raises _)).bind fun dstCreds => ?_
    refine (raises_outside x.now_raises).bind fun now => ?_
    exact (x.raises_commit migrationId _).bind fun _ => raisesOnly_pure _

theorem raises_executor (src dst : ManagedProvider (Traced W)) (migSettings : MigrationSettings)
    (plan : MigrationPlan) :
    (x.executor migrationId src dst migSettings plan).ReportsRaise OtherExc := by
  refine ⟨?_, ?_, fun seconds => raises_outside (x.sleep_raises seconds)⟩
  · intro f hf t rows total error
    cases hf
    refine (raises_outside x.elapsed_raises).bind fun elapsed => ?_
    refine (x.raises_selectOne migrationId).bind fun record => ?_
    exact (x.raises_commit migrationId _).bind fun _ => x.raises_broadcast migrationId _
  · intro f hf level message t
    cases hf
    refine (raises_outside x.newUuid_raises).bind fun id => ?_
    refine (raises_outside x.appDb_raises).bind fun _ => ?_
    refine (raises_outside x.now_raises).bind fun createdAt => ?_
    exact (Call.raisesOnly_modify _).bind fun _ => x.raises_broadcast migrationId _

/-- Planning and the run of the executor raise no soft time limit, whatever its calls raise. -/
theorem raises_planAndRun (fuel : Nat) (job : Job Cr) (src dst : ManagedProvider (Traced W))
    (hdst : ∀ t, RaisesOnly OtherExc (dst.tableExists t)) :
    RaisesOnly OtherExc (x.planAndRun fuel migrationId job src dst) := by
  have hplan : RaisesOnly OtherExc
      (MigrationPlanner.buildPlan ⟨TaskContext.inTask src, TaskContext.inTask dst, job.tables⟩) := by
    refine RaisesOnly.forEach (fun plan t => ?_) _ _
    refine (raisesOnly_tryExcept _ fun exc => raisesOnly_pure _).bind fun srcSchema => ?_
    cases srcSchema with
    | error exc => exact raisesOnly_pure _
    | ok src =>
      have hexists : RaisesOnly OtherExc ((TaskContext.inTask dst).tableExists t) :=
        raises_outside (hdst t)
      refine RaisesOnly.bind ?_ fun _ => raisesOnly_pure _
      refine hexists.bind fun destExists => ?_
      cases destExists with
      | true => exact raisesOnly_tryExcept _ fun exc => raisesOnly_pure _
      | false => exact raisesOnly_pure _
  refine hplan.bind fun plan => ?_
  exact ((x.raises_executor migrationId src dst job.migSettings plan).run
    (fun _ _ _ h => transform_otherExc h) fuel).zoom

theorem raises_connected {α : Type} {p : ManagedProvider (Traced W)}
    {body : Call Exc (TaskState (Traced W)) α} (hconnect : RaisesOnly OtherExc p.connect)
    (hdisconnect : RaisesOnly OtherExc p.disconnect) (hbody : RaisesOnly OtherExc body) :
    RaisesOnly OtherExc (TaskContext.connected p body) :=
  (raises_outside hconnect).bind fun _ => hbody.tryFinally (raises_outside hdisconnect)

/-- No run of the task ends by the soft time limit. -/
theorem raises_execute (fuel : Nat) : RaisesOnly OtherExc (x.execute fuel migrationId) := by
  refine (x.raises_markRunning migrationId).bind fun job => ?_
  have hmigrate : RaisesOnly OtherExc (x.migrate fuel migrationId job) := by
    rw [TaskContext.migrate_eq]
    intro s
    refine Call.wp_bind_ofExcept (fun p hp => ?_) (fun exc h => ?_)
    · obtain ⟨⟨srcType, hsrc⟩, ⟨dstType, hdst⟩⟩ := x.providers_ok hp
      obtain ⟨hconnect, hdisconnect⟩ := x.connect_raises _ _ p.1 hsrc
      obtain ⟨hconnect', hdisconnect'⟩ := x.connect_raises _ _ p.2 hdst
      have hrun := x.raises_planAndRun migrationId fuel job p.1 p.2
        (x.tableExists_raises _ _ p.2 hdst)
      have hbody : RaisesOnly OtherExc (x.tryBody migrationId fuel job p) :=
        raises_connected hconnect hdisconnect (raises_connected hconnect' hdisconnect' hrun)
      refine hbody.tryExcept (fun exc hexc => ?_) s
      exact (x.raises_markFailed migrationId _).bind fun _ => Call.raisesOnly_raise hexc
    · rcases x.providers_error h with hkind | ⟨type, creds, hraised⟩
      · exact fun hk => (by rw [hkind] at hk; cases hk)
      · exact x.getProvider_raises type creds exc hraised
  refine hmigrate.bind fun result => ?_
  refine RaisesOnly.bind ?_ fun _ =>
    (x.raises_broadcast migrationId _).bind fun _ => raisesOnly_pure _
  refine (x.raises_selectOne migrationId).bind fun record => ?_
  exact (raises_outside x.now_raises).bind fun now => x.raises_commit migrationId _

end LimitedTask

/-- The text that `_execute` writes when the soft time limit reaches it. -/
def timeLimitText : String := TaskContext.failureText ⟨.softTimeLimitExceeded, ""⟩

/-- Whenever the soft time limit was raised in a provider call of the run, the run ended by it, with
no call after that one and with the record marked FAILED. -/
def LimitStops (migrationId : String) (outcome : Outcome Exc ExecResult)
    (s : TaskState (Traced W)) : Prop :=
  ∀ earlier call exc later, s.world.calls = earlier ++ (call, .raised exc) :: later →
    exc.kind = .softTimeLimitExceeded →
    (∃ exc', outcome = .raised exc' ∧ exc'.kind = .softTimeLimitExceeded) ∧ later = [] ∧
    ∃ record, s.app.migrations.get? migrationId = some record ∧ record.status = .FAILED ∧
      record.errorMessage = some timeLimitText

/-- The soft time limit never stops a run: the law holds of a run only when it was not raised in any
provider call at all. -/
theorem limitStops_iff (x : LimitedTask Cr W) (fuel : Nat) (migrationId : String) (app : AppDb)
    (events : List (String × Event)) (w : W) {outcome : Outcome Exc ExecResult}
    {s : TaskState (Traced W)}
    (hrun : x.execute fuel migrationId ⟨app, events, { inner := w }⟩ = (outcome, s)) :
    LimitStops migrationId outcome s ↔
      ∀ call exc, (call, .raised exc) ∈ s.world.calls → exc.kind ≠ .softTimeLimitExceeded := by
  constructor
  · intro h call exc hmem hkind
    obtain ⟨earlier, later, hcalls⟩ := List.append_of_mem hmem
    obtain ⟨⟨exc', hraised, hkind'⟩, -⟩ := h earlier call exc later hcalls hkind
    subst hraised
    exact (x.raises_execute migrationId fuel).raised hrun hkind'
  · intro h earlier call exc later hcalls hkind
    exact absurd hkind (h call exc (by simp [hcalls]))

/-- A database whose first insert is cut short by the soft time limit. -/
private def slowDatabase : BaseDatabaseProvider Bool where
  getTableSchema t := pure { name := t, columns := [{ name := "id", dataType := "INTEGER" }] }
  tableExists _ := pure false
  fetchBatch _ offset _ _ := pure (if offset = 0 then [Dict.ofList [("id", .int 1)]] else [])
  createTable _ := pure ()
  insertBatch _ rows _ := fun raised =>
    if raised then (.returned rows.length, true)
    else (.raised ⟨.softTimeLimitExceeded, "SoftTimeLimitExceeded()"⟩, true)
  truncateTable _ := pure ()

private def slowTask : LimitedTask Unit Bool where
  loadsTables _ := .ok ["users"]
  loadsSettings _ := .ok {}
  decryptCredentials _ := .ok ()
  databaseType _ := some "sqlite"
  getProvider _ _ := .ok { Traced.provider slowDatabase with }
  now := pure 1
  elapsed := pure 1
  newUuid := pure "id"
  recorded _ _ p h := by
    cases h
    exact ⟨slowDatabase, rfl⟩
  loadsTables_raises _ _ h := by cases h
  loadsSettings_raises _ _ h := by cases h
  decryptCredentials_raises _ _ h := by cases h
  getProvider_raises _ _ _ h := by cases h
  appDb_raises := raisesOnly_pure ()
  sockets_raises := raisesOnly_pure ()
  now_raises := raisesOnly_pure 1
  elapsed_raises := raisesOnly_pure 1
  newUuid_raises := raisesOnly_pure "id"
  sleep_raises _ := raisesOnly_pure ()
  connect_raises _ _ p h := by
    cases h
    exact ⟨raisesOnly_pure (), raisesOnly_pure ()⟩
  tableExists_raises _ _ p h t := by
    cases h
    exact fun _ => trivial

private def slowRecord : Migration :=
  { sourceConnection := "source", destinationConnection := "destination" }

/-- The start of the task, where the first insert is still to be cut short or not. -/
private def slowStart (raised : Bool) : TaskState (Traced Bool) where
  app := { migrations := Dict.ofList [("m", slowRecord)] }
  world := { inner := raised }

theorem limitStops_iff_quiet :
    LimitStops "m" (slowTask.execute 2 "m" (slowStart true)).1
      (slowTask.execute 2 "m" (slowStart true)).2 := by
  have hrun := (Prod.eta (slowTask.execute 2 "m" (slowStart true))).symm
  refine (limitStops_iff slowTask 2 "m" (slowStart true).app [] true hrun).mpr ?_
  have hall : ∀ c ∈ (slowTask.execute 2 "m" (slowStart true)).2.world.calls,
      c.2 = .returned () := by decide +kernel
  intro call exc hcall
  cases hall _ hcall

/-- The insert is tried again after the soft time limit, and the migration completes. -/
theorem limit_is_retried :
    (slowTask.execute 2 "m" (slowStart false)).1 =
      .returned { completedTables := ["users"], totalRowsMigrated := 1 } ∧
    ¬ LimitStops "m" (slowTask.execute 2 "m" (slowStart false)).1
      (slowTask.execute 2 "m" (slowStart false)).2 := by
  have hreturned : (slowTask.execute 2 "m" (slowStart false)).1 =
      .returned { completedTables := ["users"], totalRowsMigrated := 1 } := by decide +kernel
  have hlimit : ∃ c ∈ (slowTask.execute 2 "m" (slowStart false)).2.world.calls,
      c.2 = .raised ⟨.softTimeLimitExceeded, "SoftTimeLimitExceeded()"⟩ := by decide +kernel
  refine ⟨hreturned, ?_⟩
  intro h
  obtain ⟨⟨call, -⟩, hmem, rfl⟩ := hlimit
  obtain ⟨earlier, later, hcalls⟩ := List.append_of_mem hmem
  obtain ⟨⟨exc, hraised, -⟩, -⟩ := h earlier call _ later hcalls rfl
  rw [hreturned] at hraised
  cases hraised

end DataBridge
