import DataBridge.Migration.JobCalls
import DataBridge.System.StoredRequest
import DataBridge.Workers.FinalRecord
import DataBridge.Workers.WorldInvariant

namespace DataBridge.TaskContext

open Call (Keeps Yields)

variable {Cr W : Type} {J : W → Prop} {x hook : TaskContext Cr W} {c : JobCalls}
  {migrationId : String} {job : Job Cr}

/-- The tables of the job are among those of `c`, and its providers serve them. -/
structure RunsJob (c : JobCalls) (J : W → Prop) (x : TaskContext Cr W) (job : Job Cr) : Prop where
  tables : ∀ t ∈ job.tables, t ∈ c.names
  serves : ∀ src dst, x.providers job = .ok (src, dst) →
    c.Serves J src.toBaseDatabaseProvider dst.toBaseDatabaseProvider
  source : ∀ src dst, x.providers job = .ok (src, dst) → Keeps J src.connect ∧ Keeps J src.disconnect
  destination : ∀ src dst, x.providers job = .ok (src, dst) →
    Keeps J dst.connect ∧ Keeps J dst.disconnect

section run

variable (hx : x.withoutProviders.KeepsWorld J)
include hx

/-- Planning and execution of a job keep what its calls keep. -/
theorem keeps_planAndRun (hc : c.Consistent) (fuel : Nat) {src dst : ManagedProvider W}
    (hserves : c.Serves J src.toBaseDatabaseProvider dst.toBaseDatabaseProvider)
    (htables : ∀ t ∈ job.tables, t ∈ c.names) :
    Keeps (OfWorld J) (x.planAndRun fuel migrationId job src dst) := by
  have hinTask : c.Serves (OfWorld J) (inTask src) (inTask dst) :=
    hserves.within (fun _ h => h) (fun _ _ _ h => h)
  refine Keeps.bind_of (JobCalls.yields_buildPlan hinTask hc htables) ?_
  intro plan hplan
  have hruns : c.Runs (OfWorld J) (x.executor migrationId src dst job.migSettings plan) := by
    refine ⟨hinTask, ?_, ?_, fun seconds => keepsWorld_outside (hx.sleep _)⟩
    · intro f hf t rows total error
      cases hf
      exact hx.onProgress plan t rows total error
    · intro f hf level message t
      cases hf
      exact hx.onLog level message t
  exact (hruns.keeps_run hplan fuel).zoom (fun _ h => h) (fun _ _ _ h => h)

theorem keeps_migrate (hc : c.Consistent) (hjob : x.RunsJob c J job) (fuel : Nat) :
    Keeps (OfWorld J) (x.migrate fuel migrationId job) := by
  rw [migrate_eq]
  intro s hs
  apply Call.wp_bind_ofExcept _ fun _ _ => hs
  intro p hp
  obtain ⟨src, dst⟩ := p
  obtain ⟨hconnect, hdisconnect⟩ := hjob.source src dst hp
  obtain ⟨hconnect', hdisconnect'⟩ := hjob.destination src dst hp
  have hbody : Keeps (OfWorld J) (x.planAndRun fuel migrationId job src dst) :=
    keeps_planAndRun hx hc fuel (hjob.serves src dst hp) hjob.tables
  have hinner := keepsWorld_connected hconnect' hdisconnect' hbody
  have htry := keepsWorld_connected hconnect hdisconnect hinner
  have hfail : ∀ exc, Keeps (OfWorld J) (x.failAndRaise migrationId exc : Call Exc _ ExecResult) :=
    fun exc => hx.failAndRaise exc
  exact htry.tryExcept hfail s hs

/-- The job that a run marks RUNNING is one that the record holds. -/
theorem wp_markRunning_job (s : TaskState W) (hs : J s.world) :
    Call.wp (x.markRunning migrationId)
      ⟨fun job s' => (∃ record, s.app.migrations.get? migrationId = some record ∧
          x.loadJob record.config = .ok job) ∧ J s'.world,
        fun _ s' => J s'.world, fun s' => J s'.world⟩ s := by
  rw [markRunning_eq]
  have hfound : Call.wp (x.selectMigration migrationId) ⟨fun found s' =>
      found = s.app.migrations.get? migrationId ∧ J s'.world, fun _ s' => J s'.world,
      fun s' => J s'.world⟩ s := by
    have happ := Call.wp_and (wp_outside x.appDb s) (keepsWorld_outside hx.appDb s hs)
    rw [selectMigration, Call.wp_bind]
    refine Call.wp_mono happ ?_ (fun _ _ h => h.2) (fun _ h => h.2)
    intro _ s' h
    obtain ⟨hsame, hworld⟩ := h
    exact ⟨congrArg (fun app => app.migrations.get? migrationId) hsame, hworld⟩
  refine Call.wp_seq hfound ?_
  intro found s' h
  obtain ⟨hrow, hworld⟩ := h
  cases found with
  | none => exact hworld
  | some record =>
    apply Call.wp_bind_ofExcept _ fun _ _ => hworld
    intro job hload
    have hcommit : ∀ now, Keeps (OfWorld J)
        (x.commitMigration migrationId (runningRecord record now)) := fun now =>
      (keepsWorld_outside hx.appDb).bind fun _ => Call.keeps_modify fun _ h => h
    refine Call.wp_seq (keepsWorld_outside hx.now s' hworld) fun now s₁ h₁ => ?_
    refine Call.wp_seq (hcommit now s₁ h₁) fun _ s₂ h₂ => ?_
    exact ⟨⟨record, hrow.symm, hload⟩, h₂⟩

/-- A run of the task keeps what the calls of its job keep. -/
theorem keeps_celeryTask (hhook : hook.withoutProviders.KeepsWorld J) (hc : c.Consistent)
    (fuel : Nat) {s : TaskState W}
    (hjob : ∀ record, s.app.migrations.get? migrationId = some record → ∀ job,
      x.loadJob record.config = .ok job → x.RunsJob c J job)
    (hs : J s.world) : J (x.celeryTask hook fuel migrationId s).2.world := by
  have hexecute : Call.wp (x.execute fuel migrationId)
      ⟨fun _ s' => J s'.world, fun _ s' => J s'.world, fun s' => J s'.world⟩ s := by
    refine Call.wp_seq (wp_markRunning_job hx s hs) ?_
    intro job s' h
    obtain ⟨⟨record, hrow, hload⟩, hs'⟩ := h
    have hmigrate : Keeps (OfWorld J) (x.migrate fuel migrationId job) :=
      keeps_migrate hx hc (hjob record hrow job hload) fuel
    refine (hmigrate.bind fun result => ?_) s' hs'
    have hfinal : Keeps (OfWorld J) (x.finalise migrationId result) := hx.finalise result
    have hcompleted : Keeps (OfWorld J) (x.broadcast migrationId (.completed result)) :=
      hx.broadcast _
    exact hfinal.bind fun _ => hcompleted.bind fun _ => Call.keeps_pure result
  rw [Call.wp] at hexecute
  rw [celeryTask]
  rcases hrun : x.execute fuel migrationId s with ⟨result | exc | _, s'⟩
  · rw [hrun] at hexecute
    exact hexecute
  · rw [hrun] at hexecute
    have hfailure : Keeps (OfWorld J) (hook.onFailure exc [migrationId]) := by
      unfold onFailure
      split
      · exact Call.keeps_pure ()
      · exact Call.keeps_pure ()
      · exact hhook.markFailed _
    exact Call.keeps_snd hfailure hexecute
  · rw [hrun] at hexecute
    exact hexecute

end run

end DataBridge.TaskContext
