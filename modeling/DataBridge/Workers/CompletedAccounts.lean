import DataBridge.Workers.TaskFrame

namespace DataBridge

/-- Every name is planned, or the plan says that its source schema could not be read. A table is
skipped only if the validator rejects its pair of schemas. -/
structure PlanAccounts (names : List String) (plan : MigrationPlan) : Prop where
  planned : ∀ t ∈ names, (∃ tp ∈ plan.tables, tp.tableName = t) ∨
    ∃ exc, MigrationPlanner.sourceReadWarning t exc ∈ plan.warnings
  skipped : ∀ tp ∈ plan.tables, tp.status = .skipped →
    ∃ exc, validateSchemaCompatibility tp.sourceSchema tp.destinationSchema = .error exc

namespace PlanAccounts

variable {names : List String} {plan : MigrationPlan}

theorem empty : PlanAccounts [] .empty := ⟨by simp, by simp [MigrationPlan.empty]⟩

/-- A plan with more warnings accounts for the same names. -/
theorem warn (h : PlanAccounts names plan) (warning : String) :
    PlanAccounts names (plan.warn warning) := by
  refine ⟨?_, h.skipped⟩
  intro t ht
  rcases h.planned t ht with hp | ⟨exc, hw⟩
  · exact Or.inl hp
  · exact Or.inr ⟨exc, List.mem_append_left _ hw⟩

theorem unread (h : PlanAccounts names plan) (t : String) (exc : Exc) :
    PlanAccounts (names ++ [t]) (plan.warn (MigrationPlanner.sourceReadWarning t exc)) := by
  refine ⟨?_, h.skipped⟩
  intro t' ht'
  rcases List.mem_append.mp ht' with hold | hnew
  · exact (h.warn _).planned t' hold
  · have he : t' = t := by simpa using hnew
    subst he
    exact Or.inr ⟨exc, List.mem_append_right _ (by simp)⟩

private theorem extend (h : PlanAccounts names plan) {t : String} {tp : MigrationTablePlan}
    {total : Nat} {more : List String} (hname : tp.tableName = t)
    (hskip : tp.status = .skipped →
      ∃ exc, validateSchemaCompatibility tp.sourceSchema tp.destinationSchema = .error exc) :
    PlanAccounts (names ++ [t])
      { tables := plan.tables ++ [tp], totalRows := total, warnings := plan.warnings ++ more } := by
  refine ⟨?_, ?_⟩
  · intro t' ht'
    rcases List.mem_append.mp ht' with hold | hnew
    · rcases h.planned t' hold with ⟨tp', htp', hn⟩ | ⟨exc, hw⟩
      · exact Or.inl ⟨tp', List.mem_append_left _ htp', hn⟩
      · exact Or.inr ⟨exc, List.mem_append_left _ hw⟩
    · have he : t' = t := by simpa using hnew
      exact Or.inl ⟨tp, by simp, hname.trans he.symm⟩
  · intro tp' htp' hs
    rcases List.mem_append.mp htp' with hold | hnew
    · exact h.skipped tp' hold hs
    · have he : tp' = tp := by simpa using hnew
      subst he
      exact hskip hs

theorem planTable (h : PlanAccounts names plan) (t : String) (src : TableSchema)
    (dest : Option TableSchema) :
    PlanAccounts (names ++ [t]) (MigrationPlanner.planTable t src dest plan) := by
  unfold MigrationPlanner.planTable
  split
  · exact h.extend rfl (fun hs => by cases hs)
  · rename_i exc hv
    exact h.extend rfl (fun _ => ⟨exc, hv⟩)

end PlanAccounts

variable {W : Type}

/-- Whatever the providers answer or raise, a returned plan accounts for every requested name. -/
theorem wp_buildPlan (p : MigrationPlanner W) (w : W) :
    Call.wp p.buildPlan (Post.onReturn fun plan _ => PlanAccounts p.tableNames plan) w := by
  have hkept : MigrationPlanner.KeptByPlanning
      fun reads plan => PlanAccounts (reads.map (·.tableName)) plan := by
    refine ⟨PlanAccounts.empty, fun h => h.warn, ?_, ?_⟩
    · intro reads plan h tableName exc
      rw [List.map_append]
      exact h.unread tableName exc
    · intro reads plan h tableName src dest
      rw [List.map_append]
      exact h.planTable tableName src dest
  refine Call.wp_mono (MigrationPlanner.wp_buildPlan_reads hkept p w) ?_ (fun _ _ h => h) (fun _ h => h)
  intro plan w' hparts
  obtain ⟨reads, hnames, hplan⟩ := hparts
  exact hnames ▸ hplan

/-- While no table has failed, the lists of the result split the tables done by their status. -/
def RunAccounts (done : List MigrationTablePlan) (results : ExecResult) : Prop :=
  results.failedTables = [] →
    results.completedTables = (done.filter (·.status ≠ .skipped)).map (·.tableName) ∧
    results.skippedTables = (done.filter (·.status = .skipped)).map (·.tableName)

theorem wp_run (x : MigrationExecutor W) (fuel : Nat) (s : ExecState W) :
    Call.wp (x.run fuel) (Post.onReturn fun results _ => RunAccounts x.plan.tables results) s := by
  rw [MigrationExecutor.run, Call.wp_bind]
  refine Call.wp_forEach (fun pre results _ => RunAccounts pre results) x.plan.tables ?_
    (fun _ _ h => h) [] x.plan.tables {} s rfl (fun _ => ⟨rfl, rfl⟩)
  intro pre tp post results s' _ h
  apply MigrationExecutor.wp_runTable
  · intro hs
    refine Call.wp_of_forall ?_ (fun _ _ => trivial) (fun _ => trivial)
    intro _ _ hf
    obtain ⟨hcompleted, hskipped⟩ := h hf
    constructor
    · simp [hcompleted, hs]
    · simp [hskipped, hs]
  · intro hs
    refine Call.wp_of_forall ?_ (fun _ _ => trivial) (fun _ => trivial)
    intro success _
    have hfailed : results.failedTables ++ [tp.tableName] ≠ [] := by simp
    cases success with
    | true =>
      intro hf
      obtain ⟨hcompleted, hskipped⟩ := h hf
      constructor
      · simp [hcompleted, hs]
      · simp [hskipped, hs]
    | false =>
      dsimp only
      rw [MigrationExecutor.afterTable, if_neg Bool.false_ne_true]
      by_cases hc : x.continueOnError = true
      · rw [if_pos hc]
        exact fun hf => absurd hf hfailed
      · rw [if_neg hc]
        exact fun hf => absurd hf hfailed

/-- A requested name in a plan that accounts for it, after a run without failed tables. -/
theorem requested_accounted {names : List String} {plan : MigrationPlan} {results : ExecResult}
    (hplan : PlanAccounts names plan) (hrun : RunAccounts plan.tables results)
    (hfailed : results.failedTables = []) : ∀ t ∈ names,
      t ∈ results.completedTables ∨
      (t ∈ results.skippedTables ∧ ∃ tp ∈ plan.tables, tp.tableName = t ∧
        ∃ exc, validateSchemaCompatibility tp.sourceSchema tp.destinationSchema = .error exc) ∨
      ∃ exc, MigrationPlanner.sourceReadWarning t exc ∈ plan.warnings := by
  intro t ht
  obtain ⟨hcompleted, hskipped⟩ := hrun hfailed
  rcases hplan.planned t ht with ⟨tp, htp, hname⟩ | hwarned
  · by_cases hs : tp.status = .skipped
    · refine Or.inr (Or.inl ⟨?_, tp, htp, hname, hplan.skipped tp htp hs⟩)
      rw [hskipped, ← hname]
      exact List.mem_map_of_mem (List.mem_filter.mpr ⟨htp, by simpa using hs⟩)
    · apply Or.inl
      rw [hcompleted, ← hname]
      exact List.mem_map_of_mem (List.mem_filter.mpr ⟨htp, by simpa using hs⟩)
  · exact Or.inr (Or.inr hwarned)

namespace TaskContext

variable {Cr : Type} (x : TaskContext Cr W)

/-- What is known of a result that `_execute` goes on to finalise: a plan was made for the job's
tables, and this plan was run. -/
def Ran (fuel : Nat) (migrationId : String) (job : Job Cr) (result : ExecResult) : Prop :=
  ∃ src dst plan s₁ s₂ s₃,
    MigrationPlanner.buildPlan ⟨inTask src, inTask dst, job.tables⟩ s₁ = (.returned plan, s₂) ∧
    runExecutor fuel (x.executor migrationId src dst job.migSettings plan) s₂ =
      (.returned result, s₃)

theorem wp_planAndRun (fuel : Nat) (migrationId : String) (job : Job Cr)
    (src dst : ManagedProvider W) (s : TaskState W) :
    Call.wp (x.planAndRun fuel migrationId job src dst)
      (Post.onReturn fun result _ => x.Ran fuel migrationId job result) s := by
  apply Call.wp_seq (Call.wp_onReturn_self _ s)
  intro plan s' hplan
  refine Call.wp_mono (Call.wp_onReturn_self _ s') ?_ (fun _ _ h => h) (fun _ h => h)
  intro result s'' hrun
  exact ⟨src, dst, plan, s, s', s'', hplan, hrun⟩

private theorem wp_connected {α : Type} (p : ManagedProvider W) {body : Call Exc (TaskState W) α}
    {R : α → Prop} (hbody : ∀ s, Call.wp body (Post.onReturn fun a _ => R a) s)
    (s : TaskState W) : Call.wp (connected p body) (Post.onReturn fun a _ => R a) s := by
  apply Call.wp_bind_any
  intro _ s'
  rw [Call.wp_tryFinally]
  refine Call.wp_mono (hbody s') ?_ ?_ (fun _ h => h)
  · intro a s'' ha
    exact Call.wp_of_forall (fun _ _ => ha) (fun _ _ => trivial) (fun _ => trivial)
  · intro e s'' _
    exact Call.wp_of_forall (fun _ _ => trivial) (fun _ _ => trivial) (fun _ => trivial)

theorem wp_migrate (fuel : Nat) (migrationId : String) (job : Job Cr) (s : TaskState W) :
    Call.wp (x.migrate fuel migrationId job)
      (Post.onReturn fun result _ => x.Ran fuel migrationId job result) s := by
  rw [migrate_eq]
  apply Call.wp_bind_any
  intro p s₁
  have hrun := wp_connected p.1
    (wp_connected p.2 (x.wp_planAndRun fuel migrationId job p.1 p.2)) s₁
  rw [Call.wp_tryExcept]
  refine Call.wp_mono hrun (fun _ _ h => h) ?_ (fun _ h => h)
  exact fun exc s₂ _ => Call.wp_bind_any fun _ _ => trivial

theorem wp_markRunning (migrationId : String) (s : TaskState W) :
    Call.wp (x.markRunning migrationId)
      (Post.onReturn fun job _ => ∃ record, s.app.migrations.get? migrationId = some record ∧
        x.loadsTables (orText record.tablesConfig "[]") = .ok job.tables) s := by
  have hselect : Call.wp (x.selectMigration migrationId)
      (Post.onReturn fun r _ => r = s.app.migrations.get? migrationId) s := by
    rw [selectMigration, outside, Call.wp_bind, Call.wp_zoom]
    exact Call.wp_of_forall (fun _ _ => rfl) (fun _ _ => trivial) (fun _ => trivial)
  apply Call.wp_seq hselect
  intro r s₁ hr
  cases r with
  | none => trivial
  | some record =>
    refine Call.wp_bind_ofExcept (fun tables htables => ?_) (fun _ _ => trivial)
    apply Call.wp_bind_any
    intro migSettings s₂
    apply Call.wp_bind_any
    intro srcCreds s₃
    apply Call.wp_bind_any
    intro dstCreds s₄
    apply Call.wp_bind_any
    intro now s₅
    apply Call.wp_bind_any
    intro _ s₆
    exact ⟨record, hr.symm, htables⟩

/-- The status that finalising writes. -/
theorem wp_finalise (migrationId : String) (result : ExecResult) (s : TaskState W) :
    Call.wp (x.finalise migrationId result)
      (Post.onReturn fun _ s' => ∃ record now, s'.app.migrations.get? migrationId =
        some (finalRecord record result now)) s := by
  apply Call.wp_bind_any
  intro record s₁
  apply Call.wp_bind_any
  intro now s₂
  apply Call.wp_bind_any
  intro _ s₃
  exact ⟨record, now, by simp⟩

/-- A record that `_execute` finalises as COMPLETED had no failed table, and every table named in
its `tables_config` was completed, or was skipped because the validator rejects its schemas, or
was left out of the plan with a warning that its source schema could not be read. -/
theorem completed_accounts (fuel : Nat) (migrationId : String) (s s₁ s₂ s₃ : TaskState W)
    (job : Job Cr) (result : ExecResult) (record : Migration)
    (hload : x.markRunning migrationId s = (.returned job, s₁))
    (hrun : x.migrate fuel migrationId job s₁ = (.returned result, s₂))
    (hfinal : x.finalise migrationId result s₂ = (.returned (), s₃))
    (hrecord : s₃.app.migrations.get? migrationId = some record)
    (hstatus : record.status = .COMPLETED) :
    (∃ before, s.app.migrations.get? migrationId = some before ∧
      x.loadsTables (orText before.tablesConfig "[]") = .ok job.tables) ∧
    result.failedTables = [] ∧
    ∃ src dst plan t₁ t₂ t₃,
      MigrationPlanner.buildPlan ⟨inTask src, inTask dst, job.tables⟩ t₁ = (.returned plan, t₂) ∧
      runExecutor fuel (x.executor migrationId src dst job.migSettings plan) t₂ =
        (.returned result, t₃) ∧
      ∀ t ∈ job.tables,
        t ∈ result.completedTables ∨
        (t ∈ result.skippedTables ∧ ∃ tp ∈ plan.tables, tp.tableName = t ∧
          ∃ exc, validateSchemaCompatibility tp.sourceSchema tp.destinationSchema = .error exc) ∨
        ∃ exc, MigrationPlanner.sourceReadWarning t exc ∈ plan.warnings := by
  have hfailed : result.failedTables = [] := by
    obtain ⟨before, now, hfinalRecord⟩ := Call.wp_of_returned (x.wp_finalise _ _ s₂) hfinal
    have he : record = finalRecord before result now := by
      rw [hfinalRecord] at hrecord
      exact (Option.some.inj hrecord).symm
    by_contra hne
    rw [he, finalRecord] at hstatus
    simp [hne] at hstatus
  obtain ⟨src, dst, plan, t₁, t₂, t₃, hplan, hexec⟩ :=
    Call.wp_of_returned (x.wp_migrate fuel migrationId job s₁) hrun
  refine ⟨Call.wp_of_returned (x.wp_markRunning migrationId s) hload, hfailed, src, dst, plan, t₁,
    t₂, t₃, hplan, hexec, ?_⟩
  have haccounts := Call.wp_of_returned (wp_buildPlan _ t₁) hplan
  have hresult : RunAccounts plan.tables result := by
    have hwp : Call.wp (runExecutor fuel (x.executor migrationId src dst job.migSettings plan))
        (Post.onReturn fun r _ => RunAccounts plan.tables r) t₂ := by
      rw [runExecutor, Call.wp_zoom]
      exact wp_run (x.executor migrationId src dst job.migSettings plan) fuel _
    exact Call.wp_of_returned hwp hexec
  exact requested_accounted haccounts hresult hfailed

/-- One requested table, whose schema the source refuses to show. -/
def unreadableTask : TaskContext Unit Unit where
  loadsTables := fun _ => .ok ["orders"]
  loadsSettings := fun _ => .ok {}
  decryptCredentials := fun _ => .ok ()
  databaseType := fun _ => some "sqlite"
  getProvider := fun _ _ => .ok {
    getTableSchema := fun _ => Call.raise ⟨.other, "permission denied"⟩
    tableExists := fun _ => pure false
    fetchBatch := fun _ _ _ _ => pure []
    createTable := fun _ => pure ()
    insertBatch := fun _ rows _ => pure rows.length
    truncateTable := fun _ => pure () }
  now := pure 0
  elapsed := pure 0
  newUuid := pure "log"

def requestedState : TaskState Unit where
  app := { migrations := Dict.empty.set "m" {
    sourceConnection := "src", destinationConnection := "dst"
    tablesConfig := some "[\"orders\"]" } }
  world := ()

/-- The record ends COMPLETED although the requested table was never attempted. -/
theorem unreadableTask_completed :
    (unreadableTask.execute 1 "m" requestedState).1 =
        .returned { completedTables := [], skippedTables := [], failedTables := [] } ∧
      ((unreadableTask.execute 1 "m" requestedState).2.app.migrations.get? "m").map (·.status) =
        some .COMPLETED ∧
      unreadableTask.loadsTables "[\"orders\"]" = .ok ["orders"] := by
  decide

theorem completed_accounts_unreadable :
    ∃ (src dst : ManagedProvider Unit) (plan : MigrationPlan) (t₁ t₂ : TaskState Unit),
      MigrationPlanner.buildPlan ⟨inTask src, inTask dst, ["orders"]⟩ t₁ = (.returned plan, t₂) ∧
      ∃ exc, MigrationPlanner.sourceReadWarning "orders" exc ∈ plan.warnings := by
  obtain ⟨-, -, src, dst, plan, t₁, t₂, -, hplan, -, hall⟩ :=
    completed_accounts unreadableTask 1 "m" requestedState _ _ _
      { tables := ["orders"], migSettings := {}, srcCreds := (), dstCreds := () } {}
      { sourceConnection := "src", destinationConnection := "dst"
        tablesConfig := some "[\"orders\"]", status := .COMPLETED
        startedAt := some 0, completedAt := some 0 }
      rfl rfl rfl rfl rfl
  rcases hall "orders" (by decide) with h | ⟨h, -⟩ | h
  · exact absurd h (by decide)
  · exact absurd h (by decide)
  · exact ⟨src, dst, plan, t₁, t₂, hplan, h⟩

end TaskContext

end DataBridge
