import DataBridge.Workers.TaskFrame

namespace DataBridge.TaskContext

variable {Cr W α : Type} {J : W → Prop} {x : TaskContext Cr W} {migrationId : String}

/-- Every call by which the task reaches the world outside keeps `J` of it. -/
structure KeepsWorld (J : W → Prop) (x : TaskContext Cr W) : Prop where
  appDb : Call.Keeps J x.appDb
  sockets : Call.Keeps J x.sockets
  now : Call.Keeps J x.now
  elapsed : Call.Keeps J x.elapsed
  newUuid : Call.Keeps J x.newUuid
  sleep : ∀ seconds, Call.Keeps J (x.sleep seconds)
  provider : ∀ type creds p, x.getProvider type creds = .ok p →
    p.toBaseDatabaseProvider.Keeps J ∧ Call.Keeps J p.connect ∧ Call.Keeps J p.disconnect

/-- A condition on the world outside, as one on the state of the task. -/
abbrev OfWorld (J : W → Prop) (s : TaskState W) : Prop := J s.world

theorem keepsWorld_outside {c : Call Exc W α} (hc : Call.Keeps J c) :
    Call.Keeps (OfWorld J) (outside c) :=
  hc.zoom (fun _ h => h) (fun _ _ _ h => h)

theorem leads_outside {I : W → Prop} {c : Call Exc W α} (hc : Call.Leads I J c) :
    Call.Leads (OfWorld I) (OfWorld J) (outside c) := fun s hs => hc s.world hs

theorem keepsWorld_inTask {p : ManagedProvider W} (hp : p.toBaseDatabaseProvider.Keeps J) :
    (inTask p).Keeps (OfWorld J) where
  getTableSchema t := keepsWorld_outside (hp.getTableSchema t)
  tableExists t := keepsWorld_outside (hp.tableExists t)
  fetchBatch t offset limit cols := keepsWorld_outside (hp.fetchBatch t offset limit cols)
  createTable schema := keepsWorld_outside (hp.createTable schema)
  insertBatch t rows cols := keepsWorld_outside (hp.insertBatch t rows cols)
  truncateTable t := keepsWorld_outside (hp.truncateTable t)

theorem keepsWorld_connected {p : ManagedProvider W} {body : Call Exc (TaskState W) α}
    (hconnect : Call.Keeps J p.connect) (hdisconnect : Call.Keeps J p.disconnect)
    (hbody : Call.Keeps (OfWorld J) body) : Call.Keeps (OfWorld J) (connected p body) :=
  (keepsWorld_outside hconnect).bind fun _ => hbody.tryFinally (keepsWorld_outside hdisconnect)

namespace KeepsWorld

variable (h : x.KeepsWorld J)
include h

theorem selectMigration : Call.Keeps (OfWorld J) (x.selectMigration migrationId) :=
  (keepsWorld_outside h.appDb).bind fun _ => Call.keeps_read _

theorem commit {change : AppDb → AppDb} : Call.Keeps (OfWorld J) (x.commit change) :=
  (keepsWorld_outside h.appDb).bind fun _ => Call.keeps_modify fun _ h => h

theorem broadcast (event : Event) : Call.Keeps (OfWorld J) (x.broadcast migrationId event) :=
  (keepsWorld_outside h.sockets).bind fun _ => Call.keeps_modify fun _ h => h

theorem selectOne : Call.Keeps (OfWorld J) (x.selectOne migrationId) := by
  apply h.selectMigration.bind
  intro found
  cases found with
  | none => exact Call.keeps_ofExcept (.error _)
  | some record => exact Call.keeps_pure record

/-- The part of `_mark_failed` behind its first statement. -/
theorem markFound (error : String) (found : Option Migration) :
    Call.Keeps (OfWorld J) (do
      x.writeFailed migrationId error found
      x.broadcast migrationId (.failed error)) := by
  apply Call.Keeps.bind
  · cases found with
    | none => exact Call.keeps_pure ()
    | some record => exact (keepsWorld_outside h.now).bind fun _ => h.commit
  · intro _
    exact h.broadcast _

theorem markFailed (error : String) : Call.Keeps (OfWorld J) (x.markFailed migrationId error) :=
  h.selectMigration.bind fun found => h.markFound error found

/-- The part of the first session of `_execute` behind its first statement. -/
theorem markRow (found : Option Migration) :
    Call.Keeps (OfWorld J) (match found with
      | none => Call.raise ⟨.valueError, s!"Migration {migrationId} not found in DB"⟩
      | some record => do
        let tables ← Call.ofExcept (x.loadsTables (orText record.tablesConfig "[]"))
        let migSettings ← Call.ofExcept (x.loadsSettings (orText record.settings "{}"))
        let srcCreds ← Call.ofExcept (x.decryptCredentials record.sourceConnection)
        let dstCreds ← Call.ofExcept (x.decryptCredentials record.destinationConnection)
        let now ← outside x.now
        x.commitMigration migrationId (runningRecord record now)
        pure ({ tables, migSettings, srcCreds, dstCreds } : Job Cr)) := by
  cases found with
  | none => exact Call.keeps_ofExcept (.error _)
  | some record =>
    refine (Call.keeps_ofExcept _).bind fun tables => ?_
    refine (Call.keeps_ofExcept _).bind fun migSettings => ?_
    refine (Call.keeps_ofExcept _).bind fun srcCreds => ?_
    refine (Call.keeps_ofExcept _).bind fun dstCreds => ?_
    refine (keepsWorld_outside h.now).bind fun now => ?_
    exact h.commit.bind fun _ => Call.keeps_pure _

theorem onProgress (plan : MigrationPlan) (tableName : String) (rows total : Nat)
    (error : Option String) :
    Call.Keeps (OfWorld J) (x.onProgress migrationId plan tableName rows total error) := by
  refine (keepsWorld_outside h.elapsed).bind fun _ => ?_
  refine h.selectOne.bind fun _ => ?_
  exact h.commit.bind fun _ => h.broadcast _

theorem onLog (level message : String) (tableName : Option String) :
    Call.Keeps (OfWorld J) (x.onLog migrationId level message tableName) := by
  refine (keepsWorld_outside h.newUuid).bind fun _ => ?_
  refine (keepsWorld_outside h.appDb).bind fun _ => ?_
  refine (keepsWorld_outside h.now).bind fun _ => ?_
  exact Call.Keeps.bind (fun _ h => h) fun _ => h.broadcast _

theorem executor {src dst : ManagedProvider W} (hsrc : src.toBaseDatabaseProvider.Keeps J)
    (hdst : dst.toBaseDatabaseProvider.Keeps J) (migSettings : MigrationSettings)
    (plan : MigrationPlan) :
    (x.executor migrationId src dst migSettings plan).Keeps (OfWorld J) := by
  refine ⟨keepsWorld_inTask hsrc, keepsWorld_inTask hdst, ?_, ?_, fun seconds => ?_⟩
  · intro f hf t rows total error
    cases hf
    exact h.onProgress plan t rows total error
  · intro f hf level message t
    cases hf
    exact h.onLog level message t
  · exact keepsWorld_outside (h.sleep _)

theorem planAndRun (fuel : Nat) (job : Job Cr) {src dst : ManagedProvider W}
    (hsrc : src.toBaseDatabaseProvider.Keeps J) (hdst : dst.toBaseDatabaseProvider.Keeps J) :
    Call.Keeps (OfWorld J) (x.planAndRun fuel migrationId job src dst) := by
  have hsource := keepsWorld_inTask hsrc
  have hdestination := keepsWorld_inTask hdst
  refine (MigrationPlanner.keeps_buildPlan hsource hdestination).bind fun plan => ?_
  have hexecutor : (x.executor migrationId src dst job.migSettings plan).Keeps (OfWorld J) :=
    h.executor hsrc hdst job.migSettings plan
  exact (MigrationExecutor.keeps_run hexecutor fuel).zoom (fun _ h => h) (fun _ _ _ h => h)

theorem failAndRaise (exc : Exc) :
    Call.Keeps (OfWorld J) (x.failAndRaise migrationId exc : Call Exc (TaskState W) α) :=
  (h.markFailed _).bind fun _ => Call.keeps_ofExcept (.error exc)

theorem migrate (fuel : Nat) (job : Job Cr) :
    Call.Keeps (OfWorld J) (x.migrate fuel migrationId job) := by
  rw [migrate_eq]
  intro s hs
  refine Call.wp_bind_ofExcept ?_ (fun _ _ => hs)
  intro p hp
  obtain ⟨⟨srcType, hsrc⟩, dstType, hdst⟩ := x.providers_ok hp
  obtain ⟨hsource, hconnect, hdisconnect⟩ := h.provider _ _ _ hsrc
  obtain ⟨hdestination, hconnect', hdisconnect'⟩ := h.provider _ _ _ hdst
  have hbody : Call.Keeps (OfWorld J) (x.planAndRun fuel migrationId job p.1 p.2) :=
    h.planAndRun fuel job hsource hdestination
  have hinner := keepsWorld_connected hconnect' hdisconnect' hbody
  have htry := keepsWorld_connected hconnect hdisconnect hinner
  exact htry.tryExcept h.failAndRaise s hs

theorem finalise (result : ExecResult) :
    Call.Keeps (OfWorld J) (x.finalise migrationId result) := by
  refine h.selectOne.bind fun _ => ?_
  exact (keepsWorld_outside h.now).bind fun _ => h.commit

/-- What follows the first session of `_execute`. -/
theorem afterMarked (fuel : Nat) (job : Job Cr) :
    Call.Keeps (OfWorld J) (do
      let result ← x.migrate fuel migrationId job
      x.finalise migrationId result
      x.broadcast migrationId (.completed result)
      pure result) := by
  refine (h.migrate fuel job).bind fun result => ?_
  refine (h.finalise result).bind fun _ => ?_
  exact (h.broadcast _).bind fun _ => Call.keeps_pure result

theorem execute (fuel : Nat) : Call.Keeps (OfWorld J) (x.execute fuel migrationId) :=
  (h.selectMigration.bind fun found => h.markRow found).bind fun job => h.afterMarked fuel job

end KeepsWorld

/-- The same task, before it makes a provider. -/
def withoutProviders (x : TaskContext Cr W) : TaskContext Cr W :=
  { x with getProvider := fun _ _ => .error ⟨.other, "no provider"⟩ }

/-- What the first statement of a task brings about, and everything after it keeps. -/
theorem execute_leads {I : W → Prop} (h : x.KeepsWorld J)
    (hfirst : Call.Leads I J x.appDb) (fuel : Nat) :
    Call.Leads (OfWorld I) (OfWorld J) (x.execute fuel migrationId) := by
  have hselect : Call.Leads (OfWorld I) (OfWorld J) (x.selectMigration migrationId) :=
    Call.Leads.bind (leads_outside hfirst) fun _ => Call.keeps_read _
  have hmark : Call.Leads (OfWorld I) (OfWorld J) (x.markRunning migrationId) :=
    hselect.bind fun found => h.markRow found
  exact hmark.bind fun job => h.afterMarked fuel job

theorem markFailed_leads {I : W → Prop} (h : x.KeepsWorld J)
    (hfirst : Call.Leads I J x.appDb) (error : String) :
    Call.Leads (OfWorld I) (OfWorld J) (x.markFailed migrationId error) := by
  have hselect : Call.Leads (OfWorld I) (OfWorld J) (x.selectMigration migrationId) :=
    Call.Leads.bind (leads_outside hfirst) fun _ => Call.keeps_read _
  exact hselect.bind fun found => h.markFound error found

end DataBridge.TaskContext
