import DataBridge.Core.EnginePool
import DataBridge.Workers.WorldInvariant

namespace DataBridge

/-- The same provider in a worker process. It opens connections of its own, not those of the
application database. -/
def ManagedProvider.inProcess {W : Type} (p : ManagedProvider W) : ManagedProvider (Process W) where
  toBaseDatabaseProvider :=
    p.toBaseDatabaseProvider.within Process.world fun w process => { process with world := w }
  connect := Process.ofWorld p.connect
  disconnect := Process.ofWorld p.disconnect

/-- The context of a task whose statements to the application database run on connections of
`_engine`. -/
def TaskContext.inProcess {Cr W : Type} (x : TaskContext Cr W) (pool : Process.PoolPolicy W) :
    TaskContext Cr (Process W) where
  loadsTables := x.loadsTables
  loadsSettings := x.loadsSettings
  decryptCredentials := x.decryptCredentials
  databaseType := x.databaseType
  getProvider type creds := (x.getProvider type creds).map ManagedProvider.inProcess
  appDb := Process.useConnection pool x.appDb
  sockets := Process.ofWorld x.sockets
  now := Process.ofWorld x.now
  elapsed := Process.ofWorld x.elapsed
  newUuid := Process.ofWorld x.newUuid
  sleep seconds := Process.ofWorld (x.sleep seconds)

/-- What Celery has a worker process do with the task. -/
inductive Execution where
  | runMigrationTask (migrationId : String)
  | onFailure (exc : String) (args : List String)
  deriving DecidableEq, Repr

/-- The coroutine of the execution uses the application database: `on_failure` runs none without a
migration id. -/
def Execution.usesDatabase : Execution → Bool
  | .runMigrationTask _ => true
  | .onFailure _ [] => false
  | .onFailure _ (migrationId :: _) => migrationId ≠ ""

namespace WorkerProcess

variable {Cr W α : Type}

/-- A worker process between two executions, and the application database. -/
abbrev State (W : Type) := TaskState (Process W)

/-- `asyncio.run`: a new event loop. -/
def newLoop (s : State W) : State W :=
  { s with world := { s.world with loop := s.world.loop + 1 } }

def asyncioRun (c : Call Exc (State W) α) (s : State W) : State W := (c (newLoop s)).2

variable (x : TaskContext Cr (Process W)) (fuel : Nat)

/-- One execution; Celery takes the result, or the exception, off its coroutine. -/
def runExecution : Execution → State W → State W
  | .runMigrationTask migrationId, s => asyncioRun (x.execute fuel migrationId) s
  | .onFailure exc args, s =>
    match args with
    | [] => s
    | migrationId :: _ =>
      if migrationId = "" then s else asyncioRun (x.markFailed migrationId exc) s

def run (executions : List Execution) (s : State W) : State W :=
  executions.foldl (fun s execution => runExecution x fuel execution s) s

/-- A worker process that has executed nothing. -/
def start (app : AppDb) (world : W) : State W := { app, world := { world } }

end WorkerProcess

namespace Process

variable {W α : Type}

/-- The connections of the pool were made by event loops up to the running one. -/
def Young (p : Process W) : Prop := ∀ c ∈ p.idle, c.loop ≤ p.loop

/-- The pool keeps a connection. -/
def Stocked (p : Process W) : Prop := p.idle ≠ [] ∧ p.Young

/-- Every connection of the pool, and there is one, was made by an earlier event loop. -/
def Outdated (p : Process W) : Prop := p.idle ≠ [] ∧ ∀ c ∈ p.idle, c.loop < p.loop

/-- A session got a connection of another event loop. -/
def Crossed (p : Process W) : Prop := ∃ use ∈ p.uses, ¬ use.InOwnLoop

/-- Every session got a connection of its own event loop. -/
def OwnLoops (p : Process W) : Prop := ∀ use ∈ p.uses, use.InOwnLoop

/-- Every session did, and so will the next one. -/
def Contained (p : Process W) : Prop := (∀ c ∈ p.idle, c.loop = p.loop) ∧ p.OwnLoops

variable {p : Process W} {pool : PoolPolicy W} {statement : Call Exc W α}

theorem ownLoops_used {connection : Connection} {rest : List Connection} {w : W}
    (hp : p.OwnLoops) (hown : connection.loop = p.loop) :
    (p.used connection rest w).OwnLoops := by
  intro use hmem
  rcases List.mem_append.mp hmem with hold | hnew
  · exact hp use hold
  · rw [List.mem_singleton.mp hnew]
    exact hown

theorem keeps_ownLoops_nullPool :
    Call.Keeps OwnLoops (useConnection nullPool statement) := by
  apply keeps_useConnection
  intro p connection rest w hp hcheckout
  cases hcheckout
  exact ownLoops_used hp rfl

theorem keeps_contained : Call.Keeps Contained (useConnection pool statement) := by
  apply keeps_useConnection
  intro p connection rest w hp hcheckout
  obtain ⟨hconnection, hrest⟩ := checkout_ok hcheckout
  have hown : connection.loop = p.loop := by
    rcases hconnection with rfl | hkept
    · rfl
    · exact hp.1 connection hkept
  refine ⟨?_, ownLoops_used hp.2 hown⟩
  intro c hc
  rcases List.mem_cons.mp hc with rfl | hc
  · exact hown
  · exact hp.1 c (hrest c hc)

theorem young_used {connection : Connection} {rest : List Connection} {w : W} {handout : Handout}
    (hp : p.Young) (hcheckout : p.checkout handout = .ok (connection, rest)) :
    (p.used connection rest w).Young := by
  obtain ⟨hconnection, hrest⟩ := checkout_ok hcheckout
  intro c hc
  rcases List.mem_cons.mp hc with rfl | hc
  · rcases hconnection with rfl | hkept
    · exact Nat.le_refl _
    · exact hp c hkept
  · exact hp c (hrest c hc)

theorem keeps_stocked : Call.Keeps Stocked (useConnection pool statement) :=
  keeps_useConnection fun _ _ _ _ hp hcheckout => ⟨List.cons_ne_nil _ _, young_used hp.2 hcheckout⟩

theorem keeps_crossed : Call.Keeps Crossed (useConnection pool statement) := by
  apply keeps_useConnection
  intro p connection rest w hp _
  obtain ⟨use, hmem, huse⟩ := hp
  exact ⟨use, List.mem_append_left _ hmem, huse⟩

/-- A use of a pool that never fails leaves a connection in it. -/
theorem leads_stocked : Call.Leads Young Stocked (useConnection lifo statement) := by
  intro p hp
  rcases useConnection_snd lifo statement p with ⟨exc, hcheckout, -⟩ |
    ⟨connection, rest, w, hcheckout, heq⟩
  · simp only [checkout, lifo] at hcheckout
    split at hcheckout <;> cases hcheckout
  · rw [heq]
    exact ⟨List.cons_ne_nil _ _, young_used hp hcheckout⟩

/-- The connection released last, in an earlier event loop, goes to the next session. -/
theorem leads_crossed : Call.Leads Outdated Crossed (useConnection lifo statement) := by
  intro p hp
  obtain ⟨hne, hlt⟩ := hp
  obtain ⟨connection, rest, hidle⟩ := List.exists_cons_of_ne_nil hne
  rcases useConnection_snd lifo statement p with ⟨exc, hcheckout, -⟩ |
    ⟨handed, rest', w, hcheckout, heq⟩
  · simp [checkout, lifo, hidle] at hcheckout
  · have hhanded : connection = handed := by
      simp only [checkout, lifo, hidle, List.getElem?_cons_zero] at hcheckout
      cases hcheckout
      rfl
    rw [heq]
    refine ⟨⟨handed, p.loop⟩, List.mem_append_right _ (List.mem_singleton_self _), ?_⟩
    have hmem : handed ∈ p.idle := by
      rw [hidle, ← hhanded]
      exact List.mem_cons_self
    exact Nat.ne_of_lt (hlt handed hmem)

end Process

namespace WorkerProcess

open Process TaskContext

variable {Cr W : Type} {J I K : Process W → Prop} {x : TaskContext Cr W} {pool : PoolPolicy W}
  {fuel : Nat} {s : State W} {execution : Execution} {executions : List Execution}

/-- The task reaches the pool through its sessions only. -/
theorem keepsWorld_inProcess (hworld : ∀ (p : Process W) w, J p → J { p with world := w })
    (huse : Call.Keeps J (useConnection pool x.appDb)) : (x.inProcess pool).KeepsWorld J := by
  have hofWorld : ∀ {α : Type} (c : Call Exc W α), Call.Keeps J (ofWorld c) :=
    fun c => Call.keeps_of_snd fun p hp => hworld p _ hp
  refine ⟨huse, hofWorld _, hofWorld _, hofWorld _, hofWorld _, fun _ => hofWorld _, ?_⟩
  intro type creds p hp
  have hmap : (x.getProvider type creds).map ManagedProvider.inProcess = .ok p := hp
  cases hprovider : x.getProvider type creds with
  | error exc =>
    rw [hprovider] at hmap
    cases hmap
  | ok q =>
    rw [hprovider] at hmap
    cases hmap
    refine ⟨⟨?_, ?_, ?_, ?_, ?_, ?_⟩, hofWorld _, hofWorld _⟩
    all_goals
      intros
      exact hofWorld _

/-- One execution that uses the database, in its new event loop. -/
theorem runExecution_leads (hkeeps : (x.inProcess pool).KeepsWorld K)
    (hfirst : Call.Leads I K (useConnection pool x.appDb))
    (huses : execution.usesDatabase = true) (hs : I (newLoop s).world) :
    K (runExecution (x.inProcess pool) fuel execution s).world := by
  cases execution with
  | runMigrationTask migrationId => exact execute_leads hkeeps hfirst fuel _ hs
  | onFailure exc args =>
    cases args with
    | nil => cases huses
    | cons migrationId rest =>
      have hid : migrationId ≠ "" := of_decide_eq_true huses
      rw [runExecution, if_neg hid]
      exact markFailed_leads hkeeps hfirst exc _ hs

theorem runExecution_unused (huses : execution.usesDatabase = false) :
    runExecution (x.inProcess pool) fuel execution s = s := by
  cases execution with
  | runMigrationTask migrationId => cases huses
  | onFailure exc args =>
    cases args with
    | nil => rfl
    | cons migrationId rest =>
      have hid : migrationId = "" := by simpa using of_decide_eq_false huses
      exact if_pos hid

/-- What a use keeps, and a new event loop too, is kept by every execution. -/
theorem runExecution_keeps (hworld : ∀ (p : Process W) w, J p → J { p with world := w })
    (huse : Call.Keeps J (useConnection pool x.appDb))
    (hloop : ∀ p : Process W, J p → J { p with loop := p.loop + 1 }) (hs : J s.world) :
    J (runExecution (x.inProcess pool) fuel execution s).world := by
  cases huses : execution.usesDatabase with
  | false =>
    rw [runExecution_unused huses]
    exact hs
  | true =>
    apply runExecution_leads (keepsWorld_inProcess hworld huse) _ huses (hloop _ hs)
    exact fun p hp => Call.keeps_snd huse hp

theorem run_cons : run (x.inProcess pool) fuel (execution :: executions) s =
    run (x.inProcess pool) fuel executions (runExecution (x.inProcess pool) fuel execution s) := rfl

/-- What a use keeps, and a new event loop too, holds throughout the life of a process. -/
theorem run_keeps (hworld : ∀ (p : Process W) w, J p → J { p with world := w })
    (huse : Call.Keeps J (useConnection pool x.appDb))
    (hloop : ∀ p : Process W, J p → J { p with loop := p.loop + 1 }) (hs : J s.world) :
    J (run (x.inProcess pool) fuel executions s).world := by
  induction executions generalizing s with
  | nil => exact hs
  | cons execution executions ih =>
    rw [run_cons]
    exact ih (runExecution_keeps hworld huse hloop hs)

/-- How many of the executions use the application database. -/
def usesOf (executions : List Execution) : Nat := executions.countP Execution.usesDatabase

section

variable {execution : Execution} {executions : List Execution}

theorem usesOf_cons_of_uses (h : execution.usesDatabase = true) :
    usesOf (execution :: executions) = usesOf executions + 1 :=
  List.countP_cons_of_pos h

theorem usesOf_cons_of_unused (h : execution.usesDatabase = false) :
    usesOf (execution :: executions) = usesOf executions :=
  List.countP_cons_of_neg (by simp [h])

end

theorem run_unused (h : usesOf executions = 0) :
    run (x.inProcess pool) fuel executions s = s := by
  induction executions with
  | nil => rfl
  | cons execution executions ih =>
    have hall := List.countP_eq_zero.mp h
    have hfirst : execution.usesDatabase = false := by
      simpa using hall execution List.mem_cons_self
    rw [run_cons, runExecution_unused hfirst]
    apply ih
    exact List.countP_eq_zero.mpr fun e he => hall e (List.mem_cons_of_mem _ he)

/-- With one execution that uses the database, the pool only ever meets its event loop. -/
theorem run_ownLoops (hidle : s.world.idle = []) (hs : s.world.OwnLoops)
    (h : usesOf executions ≤ 1) :
    (run (x.inProcess pool) fuel executions s).world.OwnLoops := by
  induction executions generalizing s with
  | nil => exact hs
  | cons execution executions ih =>
    rw [run_cons]
    cases huses : execution.usesDatabase with
    | false =>
      rw [runExecution_unused huses]
      apply ih hidle hs
      rwa [usesOf_cons_of_unused huses] at h
    | true =>
      have hrest : usesOf executions = 0 := by
        rw [usesOf_cons_of_uses huses] at h
        exact Nat.le_zero.mp (Nat.le_of_succ_le_succ h)
      rw [run_unused hrest]
      have hkeeps : (x.inProcess pool).KeepsWorld Contained :=
        keepsWorld_inProcess (fun _ _ h => h) keeps_contained
      refine (runExecution_leads (K := Contained) hkeeps
        (fun p hp => Call.keeps_snd keeps_contained hp) huses ?_).2
      refine ⟨?_, hs⟩
      intro c hc
      rw [show (newLoop s).world.idle = [] from hidle] at hc
      cases hc

theorem run_crossed (hs : s.world.Crossed) :
    (run (x.inProcess pool) fuel executions s).world.Crossed :=
  run_keeps (fun _ _ h => h) keeps_crossed (fun _ h => h) hs

/-- From a pool that keeps a connection, one execution is enough. -/
theorem run_crossed_of_stocked (hs : s.world.Stocked) (h : 1 ≤ usesOf executions) :
    (run (x.inProcess lifo) fuel executions s).world.Crossed := by
  induction executions with
  | nil => cases h
  | cons execution executions ih =>
    rw [run_cons]
    cases huses : execution.usesDatabase with
    | false =>
      rw [runExecution_unused huses]
      apply ih
      rwa [usesOf_cons_of_unused huses] at h
    | true =>
      have hkeeps : (x.inProcess lifo).KeepsWorld Crossed :=
        keepsWorld_inProcess (fun _ _ h => h) keeps_crossed
      apply run_crossed
      refine runExecution_leads hkeeps leads_crossed huses ⟨hs.1, ?_⟩
      exact fun c hc => Nat.lt_succ_of_le (hs.2 c hc)

/-- The second execution that uses the database meets the connection of the first. -/
theorem run_crossed_of_young (hs : s.world.Young) (h : 2 ≤ usesOf executions) :
    (run (x.inProcess lifo) fuel executions s).world.Crossed := by
  induction executions generalizing s with
  | nil => cases h
  | cons execution executions ih =>
    rw [run_cons]
    cases huses : execution.usesDatabase with
    | false =>
      rw [runExecution_unused huses]
      apply ih hs
      rwa [usesOf_cons_of_unused huses] at h
    | true =>
      have hrest : 1 ≤ usesOf executions := by
        rw [usesOf_cons_of_uses huses] at h
        exact Nat.le_of_succ_le_succ h
      have hkeeps : (x.inProcess lifo).KeepsWorld Stocked :=
        keepsWorld_inProcess (fun _ _ h => h) keeps_stocked
      apply run_crossed_of_stocked _ hrest
      refine runExecution_leads hkeeps leads_stocked huses ?_
      exact fun c hc => Nat.le_succ_of_le (hs c hc)

/-- With the pool of the Alembic environment every session stays in its own event loop. -/
theorem run_ownLoops_nullPool (hs : s.world.OwnLoops) :
    (run (x.inProcess nullPool) fuel executions s).world.OwnLoops :=
  run_keeps (fun _ _ h => h) keeps_ownLoops_nullPool (fun _ h => h) hs

/-- Whatever the pool hands out, every session gets a connection of its own event loop: exactly
where at most one execution of the process uses the database. -/
theorem ownLoops_iff (x : TaskContext Cr W) (fuel : Nat) (app : AppDb) (world : W)
    (executions : List Execution) :
    (∀ pool, (run (x.inProcess pool) fuel executions (start app world)).world.OwnLoops) ↔
      usesOf executions ≤ 1 := by
  constructor
  · intro h
    by_contra hmany
    have hyoung : (start app world : State W).world.Young := fun c hc => by cases hc
    obtain ⟨use, hmem, hcrossed⟩ :=
      run_crossed_of_young hyoung (Nat.lt_of_not_le hmany)
    exact hcrossed (h lifo use hmem)
  · intro h pool
    exact run_ownLoops rfl (fun use hmem => by cases hmem) h

private def bareContext : TaskContext Unit Unit where
  loadsTables _ := .ok []
  loadsSettings _ := .ok {}
  decryptCredentials _ := .ok ()
  databaseType _ := none
  getProvider _ _ := .error ⟨.valueError, "Unsupported database type"⟩
  now := pure 0
  elapsed := pure 0
  newUuid := pure "id"

/-- A task whose migration is not there, and its failure hook, in a new worker process. -/
private def failedTask : State Unit :=
  run (bareContext.inProcess lifo) 1
    [.runMigrationTask "m", .onFailure "Migration m not found in DB" ["m"]]
    (start { migrations := Dict.empty } ())

/-- The failure hook gets the connection that the event loop of the task has made. -/
theorem uses_failedTask : failedTask.world.uses = [⟨⟨1⟩, 1⟩, ⟨⟨1⟩, 2⟩] ∧
    ¬ failedTask.world.OwnLoops := by
  have huses : failedTask.world.uses = [⟨⟨1⟩, 1⟩, ⟨⟨1⟩, 2⟩] := rfl
  refine ⟨huses, ?_⟩
  intro h
  have hlast : ConnectionUse.InOwnLoop ⟨⟨1⟩, 2⟩ := by
    apply h
    rw [huses]
    simp
  cases hlast

end WorkerProcess

end DataBridge
