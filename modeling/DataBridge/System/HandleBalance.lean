import DataBridge.Services.CreateMigration
import DataBridge.Services.Discovery
import DataBridge.Workers.FinalRecord
import DataBridge.Workers.WorldInvariant

namespace DataBridge

open Opened (inside Holds inside_keeps)
open TaskContext (outside connected inTask OfWorld keepsWorld_outside keepsWorld_inTask)

variable {Cr W α : Type} (objects : String → Cr → Except Exc (ProviderObject W))

/-- A task whose providers open and close handles of their drivers. -/
def TaskContext.opening (x : TaskContext Cr W) : TaskContext Cr (Opened W) where
  loadsTables := x.loadsTables
  loadsSettings := x.loadsSettings
  decryptCredentials := x.decryptCredentials
  databaseType := x.databaseType
  getProvider type creds := (objects type creds).map ProviderObject.managed
  appDb := inside x.appDb
  sockets := inside x.sockets
  now := inside x.now
  elapsed := inside x.elapsed
  newUuid := inside x.newUuid
  sleep seconds := inside (x.sleep seconds)

/-- The test of a connection, by the provider object of its credentials. -/
def testOf (objects : String → Credentials → Except Exc (ProviderObject W)) (type : String)
    (creds : Credentials) : Call Exc (Opened W) (Bool × String) := do
  let p ← Call.ofExcept (objects type creds)
  let (success, message, _) ← p.testConnection
  pure (success, message)

/-- A request that opens and closes handles. -/
def CreateContext.opening (objects : String → Credentials → Except Exc (ProviderObject W))
    (c : CreateContext W) : CreateContext (Opened W) where
  fernet := c.fernet
  getProvider type creds := (objects type creds).map ProviderObject.managed
  testConnection := testOf objects
  dumpsTables := c.dumpsTables
  dumpsSettings := c.dumpsSettings
  newUuid := inside c.newUuid
  appDb := inside c.appDb

section balance

variable {objects} {x : TaskContext Cr W} {start : List HandleEvent} {held : List Nat}
  {conns : List (Option Nat)} {p : ProviderObject W} {migrationId : String}

theorem keeps_managed : p.managed.toBaseDatabaseProvider.Keeps (Holds start held conns) where
  getTableSchema _ := inside_keeps _
  tableExists _ := inside_keeps _
  fetchBatch _ _ _ _ := inside_keeps _
  createTable _ := inside_keeps _
  insertBatch _ _ _ := inside_keeps _
  truncateTable _ := inside_keeps _

/-- Nothing but its providers touches the handles. -/
theorem keepsWorld_opening (objects : String → Cr → Except Exc (ProviderObject W))
    (x : TaskContext Cr W) :
    (x.opening objects).withoutProviders.KeepsWorld (Holds start held conns) where
  appDb := inside_keeps _
  sockets := inside_keeps _
  now := inside_keeps _
  elapsed := inside_keeps _
  newUuid := inside_keeps _
  sleep _ := inside_keeps _
  provider _ _ _ h := by cases h

/-- `async with` in a task closes the connection that it opens. -/
theorem restores_connected {body : Call Exc (TaskState (Opened W)) α} (hbody : ∀ conn,
      Call.Restores (OfWorld (Holds start (conn :: held) (some conn :: conns))) body) :
    Call.Restores (OfWorld (Holds start held conns)) (connected p.managed body) := by
  refine Call.Restores.bracket ?_ hbody ?_
  · intro s hs
    rw [outside, Call.wp_zoom]
    exact ProviderObject.wp_aenter hs
  · intro conn s hs
    rw [outside, Call.wp_zoom]
    exact ProviderObject.wp_aexit hs

theorem exists_object {type : String} {creds : Cr} {q : ManagedProvider (Opened W)}
    (h : (objects type creds).map ProviderObject.managed = .ok q) :
    ∃ p : ProviderObject W, q = p.managed := by
  cases hp : objects type creds with
  | error exc =>
    rw [hp] at h
    cases h
  | ok p =>
    rw [hp] at h
    cases h
    exact ⟨p, rfl⟩

/-- Both connections of a run are closed, and whatever is planned and run between opens no other. -/
theorem restores_tryBody (fuel : Nat) (job : Job Cr) (src dst : ProviderObject W) :
    Call.Restores (OfWorld (Holds start held conns))
      ((x.opening objects).tryBody migrationId fuel job (src.managed, dst.managed)) := by
  refine restores_connected fun conn => restores_connected fun conn' => Call.Keeps.restores ?_
  exact (keepsWorld_opening objects x).planAndRun fuel job keeps_managed keeps_managed

theorem restores_migrate (fuel : Nat) (job : Job Cr) :
    Call.Restores (OfWorld (Holds start held conns))
      ((x.opening objects).migrate fuel migrationId job) := by
  have hfail : ∀ exc, Call.Keeps (OfWorld (Holds start held conns))
      ((x.opening objects).failAndRaise migrationId exc : Call Exc _ ExecResult) :=
    (keepsWorld_opening objects x).failAndRaise
  rw [TaskContext.migrate_eq]
  intro s hs
  apply Call.wp_bind_ofExcept
  · intro p hp
    obtain ⟨⟨srcType, hsrc⟩, dstType, hdst⟩ := (x.opening objects).providers_ok hp
    obtain ⟨src, hsrc⟩ := exists_object hsrc
    obtain ⟨dst, hdst⟩ := exists_object hdst
    have hpair : p = (src.managed, dst.managed) := Prod.ext hsrc hdst
    subst hpair
    exact (restores_tryBody fuel job src dst).tryExcept (fun exc => (hfail exc).restores) s hs
  · exact fun _ _ => hs

theorem restores_execute (fuel : Nat) :
    Call.Restores (OfWorld (Holds start held conns))
      ((x.opening objects).execute fuel migrationId) := by
  have hx : (x.opening objects).withoutProviders.KeepsWorld (Holds start held conns) :=
    keepsWorld_opening objects x
  have hmark : Call.Keeps (OfWorld (Holds start held conns))
      ((x.opening objects).markRunning migrationId) :=
    hx.selectMigration.bind fun found => hx.markRow found
  refine hmark.restores.bind fun job => (restores_migrate fuel job).bind fun result => ?_
  have hfinal : Call.Keeps (OfWorld (Holds start held conns))
      ((x.opening objects).finalise migrationId result) := hx.finalise result
  have hcompleted : Call.Keeps (OfWorld (Holds start held conns))
      ((x.opening objects).broadcast migrationId (.completed result)) := hx.broadcast _
  exact (hfinal.bind fun _ => hcompleted.bind fun _ => Call.keeps_pure result).restores

section request

variable {objects : String → Credentials → Except Exc (ProviderObject W)} {c : CreateContext W}

theorem restores_testOf (type : String) (creds : Credentials) :
    Call.Restores (Holds start held conns) (testOf objects type creds) := by
  refine (Call.keeps_ofExcept _).restores.bind fun p => ?_
  exact ProviderObject.restores_testConnection.bind fun _ => (Call.keeps_pure _).restores

theorem restores_checkConnection (side type : String) (creds : Credentials) :
    Call.Restores (OfWorld (Holds start held conns))
      ((c.opening objects).checkConnection side type creds) := by
  have htest : Call.Restores (OfWorld (Holds start held conns))
      (outside (testOf objects type creds)) :=
    (restores_testOf type creds).zoom (fun _ h => h) (fun _ _ _ h => h)
  refine htest.bind fun result => Call.Keeps.restores ?_
  split
  · exact Call.keeps_pure ()
  · exact Call.keeps_ofExcept (.error _)

/-- The two tests and the plan of a request. -/
theorem restores_planRequest (req : MigrationCreateRequest) :
    Call.Restores (OfWorld (Holds start held conns)) ((c.opening objects).planRequest req) := by
  intro s hs
  apply Call.wp_bind_ofExcept _ fun _ _ => hs
  intro src hsrc
  apply Call.wp_bind_ofExcept _ fun _ _ => hs
  intro dst hdst
  obtain ⟨src, rfl⟩ := exists_object hsrc
  obtain ⟨dst, rfl⟩ := exists_object hdst
  refine (restores_checkConnection _ _ _).bind (fun _ => ?_) s hs
  refine (restores_checkConnection _ _ _).bind fun _ => ?_
  refine restores_connected fun conn => restores_connected fun conn' => Call.Keeps.restores ?_
  exact MigrationPlanner.keeps_buildPlan (keepsWorld_inTask keeps_managed)
    (keepsWorld_inTask keeps_managed)

end request

end balance

/-- However a run of the Celery task ends, the connections and pools that its providers opened have
ended, each once: closed, or left open by a statement of `connect` or a call of `close` that failed.
The pool of the application's own database is not among them. -/
theorem TaskContext.celeryTask_handles (x hook : TaskContext Cr W) (fuel : Nat)
    (migrationId : String) (s : TaskState (Opened W)) :
    Call.wp ((x.opening objects).celeryTask (hook.opening objects) fuel migrationId)
      (Post.atEnd fun s' => Holds s.world.events [] s.world.conns s'.world) s := by
  have hs : Holds s.world.events [] s.world.conns s.world := ⟨⟨[], by simp, .nil⟩, rfl⟩
  have hrun : Call.wp ((x.opening objects).execute fuel migrationId)
      (Post.atEnd (OfWorld (Holds s.world.events [] s.world.conns))) s := restores_execute fuel s hs
  have hfailure : ∀ exc, Call.Keeps (OfWorld (Holds s.world.events [] s.world.conns))
      ((hook.opening objects).onFailure exc [migrationId]) := by
    intro exc
    have hhook : (hook.opening objects).withoutProviders.KeepsWorld
        (Holds s.world.events [] s.world.conns) := keepsWorld_opening objects hook
    unfold onFailure
    split
    · exact Call.keeps_pure ()
    · exact Call.keeps_pure ()
    · exact hhook.markFailed _
  rw [Call.wp] at hrun ⊢
  rw [celeryTask]
  rcases hexecute : (x.opening objects).execute fuel migrationId s with ⟨result | exc | _, s'⟩
  · rw [hexecute] at hrun
    exact hrun
  · rw [hexecute] at hrun
    exact Call.keeps_snd (hfailure exc) hrun
  · trivial

/-- However a request for a migration ends, the connections of its two tests and of its planning have
ended, each once: closed, or left open by a statement (of `connect`, or `SELECT 1` of a test) or a
call of `close` that failed. -/
theorem CreateContext.createMigration_handles
    (objects : String → Credentials → Except Exc (ProviderObject W)) (c : CreateContext W)
    (req : MigrationCreateRequest) (s : TaskState (Opened W)) :
    Call.wp ((c.opening objects).createMigration req)
      (Post.atEnd fun s' => Holds s.world.events [] s.world.conns s'.world) s := by
  have hs : Holds s.world.events [] s.world.conns s.world := ⟨⟨[], by simp, .nil⟩, rfl⟩
  refine (restores_planRequest req).bind (fun plan => Call.Keeps.restores ?_) s hs
  refine (keepsWorld_outside (inside_keeps c.newUuid)).bind fun id => ?_
  refine Call.Keeps.bind ?_ fun _ => Call.keeps_pure id
  exact (keepsWorld_outside (inside_keeps c.appDb)).bind fun _ => Call.keeps_modify fun _ h => h

end DataBridge
