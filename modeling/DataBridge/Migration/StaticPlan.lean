import DataBridge.Migration.Planner

namespace DataBridge

/-- What the catalogues of two databases say at every time. -/
structure Catalogues where
  sourceSchema : String → Except Exc TableSchema
  present : String → Bool
  destinationSchema : String → Except Exc TableSchema

namespace MigrationPlanner

variable {W : Type}

/-- The two providers of the planner read these catalogues. -/
structure Reads (c : Catalogues) (p : MigrationPlanner W) : Prop where
  source : ∀ t, p.source.getTableSchema t = Call.ofExcept (c.sourceSchema t)
  present : ∀ t, p.destination.tableExists t = pure (c.present t)
  destination : ∀ t, p.destination.getTableSchema t = Call.ofExcept (c.destinationSchema t)

/-- What one requested name adds to the plan. -/
def planStep (c : Catalogues) (plan : MigrationPlan) (tableName : String) : MigrationPlan :=
  match c.sourceSchema tableName with
  | .error exc => plan.warn (sourceReadWarning tableName exc)
  | .ok src =>
    if c.present tableName then
      match c.destinationSchema tableName with
      | .ok dest => planTable tableName src (some dest) plan
      | .error exc => planTable tableName src none (plan.warn (destinationReadWarning tableName exc))
    else planTable tableName src none plan

/-- The entries of one requested name: one, or none if its schema cannot be read. -/
def planned (c : Catalogues) (tableName : String) : List MigrationTablePlan :=
  (planStep c .empty tableName).tables

def plannedRows (c : Catalogues) (tableName : String) : Nat :=
  (planStep c .empty tableName).totalRows

variable (c : Catalogues)

theorem planTable_tables (tableName : String) (src : TableSchema) (dest : Option TableSchema)
    (plan : MigrationPlan) : (planTable tableName src dest plan).tables =
      plan.tables ++ (planTable tableName src dest .empty).tables := by
  rw [planTable, planTable]
  split <;> rfl

theorem planTable_totalRows (tableName : String) (src : TableSchema) (dest : Option TableSchema)
    (plan : MigrationPlan) : (planTable tableName src dest plan).totalRows =
      plan.totalRows + (planTable tableName src dest .empty).totalRows := by
  rw [planTable, planTable]
  split <;> simp [MigrationPlan.empty]

/-- A name whose schema can be read has one entry, of its own, and counts its rows if it is not
skipped. -/
theorem planned_cases (tableName : String) :
    (planned c tableName = [] ∧ plannedRows c tableName = 0) ∨
    ∃ tp src, planned c tableName = [tp] ∧ tp.tableName = tableName ∧
      c.sourceSchema tableName = .ok src ∧
      plannedRows c tableName = if tp.status = .skipped then 0 else src.rowCount := by
  have hentry : ∀ src dest plan, plan.tables = [] → plan.totalRows = 0 → ∃ tp src',
      (planTable tableName src dest plan).tables = [tp] ∧ tp.tableName = tableName ∧
      (Except.ok src : Except Exc TableSchema) = .ok src' ∧
      (planTable tableName src dest plan).totalRows =
        if tp.status = .skipped then 0 else src'.rowCount := by
    intro src dest plan htables hrows
    rw [planTable]
    split
    · exact ⟨_, src, by rw [htables]; rfl, rfl, rfl, by rw [hrows]; exact Nat.zero_add _⟩
    · exact ⟨_, src, by rw [htables]; rfl, rfl, rfl, by exact hrows⟩
  rw [planned, plannedRows, planStep]
  cases hsrc : c.sourceSchema tableName with
  | error exc => exact Or.inl ⟨rfl, rfl⟩
  | ok src =>
    dsimp only
    split
    · split
      · exact Or.inr (hentry src _ _ rfl rfl)
      · exact Or.inr (hentry src _ _ rfl rfl)
    · exact Or.inr (hentry src _ _ rfl rfl)

theorem planned_tableName {tableName : String} {tp : MigrationTablePlan}
    (h : tp ∈ planned c tableName) : tp.tableName = tableName := by
  rcases planned_cases c tableName with ⟨hnone, -⟩ | ⟨tq, -, hone, hname, -⟩
  · rw [hnone] at h
    cases h
  · rw [hone] at h
    exact List.mem_singleton.mp h ▸ hname

theorem planStep_tables (plan : MigrationPlan) (tableName : String) :
    (planStep c plan tableName).tables = plan.tables ++ planned c tableName := by
  rw [planned, planStep, planStep]
  split
  · simp [MigrationPlan.warn, MigrationPlan.empty]
  · split
    · split
      · exact planTable_tables ..
      · rw [planTable_tables, planTable_tables _ _ _ (MigrationPlan.warn _ _)]
        rfl
    · exact planTable_tables ..

theorem planStep_totalRows (plan : MigrationPlan) (tableName : String) :
    (planStep c plan tableName).totalRows = plan.totalRows + plannedRows c tableName := by
  rw [plannedRows, planStep, planStep]
  split
  · simp [MigrationPlan.warn, MigrationPlan.empty]
  · split
    · split
      · exact planTable_totalRows ..
      · rw [planTable_totalRows, planTable_totalRows _ _ _ (MigrationPlan.warn _ _)]
        simp [MigrationPlan.warn, MigrationPlan.empty]
    · exact planTable_totalRows ..

theorem foldl_planStep_tables (tableNames : List String) (plan : MigrationPlan) :
    (tableNames.foldl (planStep c) plan).tables = plan.tables ++ tableNames.flatMap (planned c) := by
  induction tableNames generalizing plan with
  | nil => simp
  | cons t ts ih => rw [List.foldl_cons, ih, planStep_tables, List.flatMap_cons, List.append_assoc]

theorem foldl_planStep_totalRows (tableNames : List String) (plan : MigrationPlan) :
    (tableNames.foldl (planStep c) plan).totalRows =
      plan.totalRows + (tableNames.map (plannedRows c)).sum := by
  induction tableNames generalizing plan with
  | nil => simp
  | cons t ts ih => rw [List.foldl_cons, ih, planStep_totalRows, List.map_cons, List.sum_cons, Nat.add_assoc]

variable {c} {p : MigrationPlanner W}

theorem Reads.buildPlanStep (h : p.Reads c) (plan : MigrationPlan) (tableName : String) (w : W) :
    p.buildPlanStep plan tableName w = (.returned (.again (planStep c plan tableName)), w) := by
  have hsource : Call.tryExcept (do
      let s ← p.source.getTableSchema tableName
      pure (Except.ok s)) (fun exc => pure (Except.error exc)) w =
        (.returned (c.sourceSchema tableName), w) := by
    rw [h.source]
    cases c.sourceSchema tableName with
    | ok s => rfl
    | error exc => rfl
  rw [MigrationPlanner.buildPlanStep, Call.bind_of_returned hsource, planStep]
  cases hsrc : c.sourceSchema tableName with
  | error exc => rfl
  | ok src =>
    dsimp only
    rw [readDestination, h.present]
    cases hpresent : c.present tableName with
    | false => rfl
    | true =>
      rw [h.destination]
      cases c.destinationSchema tableName with
      | ok dest => rfl
      | error exc => rfl

/-- Over unchanging catalogues the plan goes name by name, and the world stays. -/
theorem Reads.buildPlan (h : p.Reads c) (w : W) :
    p.buildPlan w = (.returned (p.tableNames.foldl (planStep c) .empty), w) := by
  have hloop : ∀ names plan, Call.forEach p.buildPlanStep names plan w =
      (.returned (names.foldl (planStep c) plan), w) := by
    intro names
    induction names with
    | nil => exact fun _ => rfl
    | cons t ts ih =>
      intro plan
      rw [Call.forEach, Call.bind_of_returned (h.buildPlanStep plan t w)]
      exact ih _
  exact hloop p.tableNames .empty

end MigrationPlanner

end DataBridge
