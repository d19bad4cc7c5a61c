import DataBridge.Framework.ExceptList
import DataBridge.Migration.Frame
import DataBridge.Workers.MigrationTasks

namespace DataBridge.TaskContext

variable {Cr W : Type}

section migrate

variable (x : TaskContext Cr W) (migrationId : String)

/-- The providers of a job, in the order `_execute` makes them. -/
def providers (job : Job Cr) : Except Exc (ManagedProvider W × ManagedProvider W) :=
  let srcType := orText (x.databaseType job.srcCreds) ""
  let dstType := orText (x.databaseType job.dstCreds) ""
  if srcType = "" ∨ dstType = "" then .error ⟨.valueError,
    "database_type missing from stored credentials — cannot start migration."⟩
  else do
    let src ← x.getProvider srcType job.srcCreds
    let dst ← x.getProvider dstType job.dstCreds
    pure (src, dst)

/-- The body of the `try` of `_execute`. -/
def tryBody (fuel : Nat) (job : Job Cr) (p : ManagedProvider W × ManagedProvider W) :
    Call Exc (TaskState W) ExecResult :=
  connected p.1 (connected p.2 (x.planAndRun fuel migrationId job p.1 p.2))

theorem migrate_eq (fuel : Nat) (job : Job Cr) :
    x.migrate fuel migrationId job = (do
      let p ← Call.ofExcept (x.providers job)
      Call.tryExcept (x.tryBody migrationId fuel job p) (x.failAndRaise migrationId)) := by
  rw [migrate, providers]
  generalize orText (x.databaseType job.srcCreds) "" = srcType
  generalize orText (x.databaseType job.dstCreds) "" = dstType
  split
  · rfl
  · rw [if_pos (Or.inr rfl)]
    rfl
  · rename_i hsrc hdst
    rw [if_neg (by rintro (h | h); exacts [hsrc h, hdst h])]
    cases x.getProvider srcType job.srcCreds with
    | error exc => rfl
    | ok src =>
      cases x.getProvider dstType job.dstCreds with
      | error exc => rfl
      | ok dst => rfl

/-- Both providers come from the registry. -/
theorem providers_ok {job : Job Cr} {p : ManagedProvider W × ManagedProvider W}
    (h : x.providers job = .ok p) :
    (∃ srcType, x.getProvider srcType job.srcCreds = .ok p.1) ∧
      ∃ dstType, x.getProvider dstType job.dstCreds = .ok p.2 := by
  rw [providers] at h
  split at h
  · cases h
  · obtain ⟨src, hsrc, hrest⟩ := ExceptList.bind_ok_iff.mp h
    obtain ⟨dst, hdst, hpair⟩ := ExceptList.bind_ok_iff.mp hrest
    cases hpair
    exact ⟨⟨_, hsrc⟩, ⟨_, hdst⟩⟩

theorem providers_error {job : Job Cr} {exc : Exc} (h : x.providers job = .error exc) :
    exc.kind = .valueError ∨ ∃ type creds, x.getProvider type creds = .error exc := by
  rw [providers] at h
  split at h
  · cases h
    exact Or.inl rfl
  · rcases ExceptList.bind_error_iff.mp h with hsrc | ⟨src, -, hrest⟩
    · exact Or.inr ⟨_, _, hsrc⟩
    · rcases ExceptList.bind_error_iff.mp hrest with hdst | ⟨dst, -, hpair⟩
      · exact Or.inr ⟨_, _, hdst⟩
      · cases hpair

end migrate

variable {I : TaskState W → Prop} {x : TaskContext Cr W} {migrationId : String}

/-- The calls outside the task, and its two callbacks, keep `I`. -/
structure Maintains (I : TaskState W → Prop) (x : TaskContext Cr W) (migrationId : String) : Prop where
  outside : ∀ {α : Type} (c : Call Exc W α), Call.Keeps I (outside c)
  onProgress : ∀ plan tableName rows total error,
    Call.Keeps I (x.onProgress migrationId plan tableName rows total error)
  onLog : ∀ level message tableName, Call.Keeps I (x.onLog migrationId level message tableName)

section maintained

variable (h : x.Maintains I migrationId)
include h

theorem Maintains.inTask (p : ManagedProvider W) : (inTask p).Keeps I where
  getTableSchema _ := h.outside _
  tableExists _ := h.outside _
  fetchBatch _ _ _ _ := h.outside _
  createTable _ := h.outside _
  insertBatch _ _ _ := h.outside _
  truncateTable _ := h.outside _

theorem Maintains.executor (src dst : ManagedProvider W) (migSettings : MigrationSettings)
    (plan : MigrationPlan) : (x.executor migrationId src dst migSettings plan).Keeps I := by
  refine ⟨h.inTask src, h.inTask dst, ?_, ?_, fun seconds => h.outside _⟩
  · intro f hf t rows total error
    cases hf
    exact h.onProgress plan t rows total error
  · intro f hf level message t
    cases hf
    exact h.onLog level message t

/-- Planning and execution keep what the callbacks keep. -/
theorem Maintains.planAndRun (fuel : Nat) (job : Job Cr) (src dst : ManagedProvider W) :
    Call.Keeps I (x.planAndRun fuel migrationId job src dst) := by
  refine (MigrationPlanner.keeps_buildPlan (h.inTask src) (h.inTask dst)).bind ?_
  intro plan
  have hexecutor := h.executor src dst job.migSettings plan
  exact (MigrationExecutor.keeps_run hexecutor fuel).zoom (fun _ h => h) (fun _ _ _ h => h)

theorem Maintains.connected {α : Type} (p : ManagedProvider W) {body : Call Exc (TaskState W) α}
    (hbody : Call.Keeps I body) : Call.Keeps I (connected p body) :=
  (h.outside p.connect).bind fun _ => hbody.tryFinally (h.outside p.disconnect)

theorem Maintains.tryBody (fuel : Nat) (job : Job Cr)
    (p : ManagedProvider W × ManagedProvider W) :
    Call.Keeps I (x.tryBody migrationId fuel job p) :=
  h.connected p.1 (h.connected p.2 (h.planAndRun fuel job p.1 p.2))

/-- From the check of the database types on, what the handler keeps is kept. -/
theorem Maintains.migrate (fuel : Nat) (job : Job Cr) (hfail : ∀ exc,
    Call.Keeps I (x.failAndRaise migrationId exc : Call Exc (TaskState W) ExecResult)) :
    Call.Keeps I (x.migrate fuel migrationId job) := by
  rw [migrate_eq]
  exact (Call.keeps_ofExcept _).bind fun p => (h.tryBody fuel job p).tryExcept hfail

end maintained

end DataBridge.TaskContext
