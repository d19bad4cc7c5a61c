import DataBridge.Framework.Returns
import DataBridge.Migration.Planner
import DataBridge.Migration.StaticSource

namespace DataBridge

/-- Two plans, one after the other. -/
def MigrationPlan.append (plan next : MigrationPlan) : MigrationPlan where
  tables := plan.tables ++ next.tables
  totalRows := plan.totalRows + next.totalRows
  warnings := plan.warnings ++ next.warnings

/-- What the databases answer about one table of the list, each call with a value or an exception. -/
structure TableAnswers where
  sourceSchema : Except Exc TableSchema
  tableExists : Except Exc Bool
  destinationSchema : Except Exc TableSchema

namespace TableAnswers

/-- The source schema is read, and `table_exists` raises. -/
def ExistsRaises (a : TableAnswers) : Prop :=
  (∃ src, a.sourceSchema = .ok src) ∧ ∃ exc, a.tableExists = .error exc

/-- The planner of this table alone, with databases that answer so. -/
def planner (a : TableAnswers) (tableName : String) : MigrationPlanner Unit where
  source := { Engine.provider Engine.idle with
    getTableSchema := fun _ => Call.ofExcept a.sourceSchema }
  destination := { Engine.provider Engine.idle with
    getTableSchema := fun _ => Call.ofExcept a.destinationSchema
    tableExists := fun _ => Call.ofExcept a.tableExists }
  tableNames := [tableName]

/-- The plan of this table alone. -/
def alone (a : TableAnswers) (tableName : String) : MigrationPlan :=
  match (a.planner tableName).buildPlan () with
  | (.returned plan, _) => plan
  | _ => .empty

end TableAnswers

namespace MigrationPlanner

variable {W : Type}

/-- Asked about a table, the databases give these answers, and `w` becomes `w'`. -/
inductive Heard (p : MigrationPlanner W) (tableName : String) (a : TableAnswers) (w w' : W) : Prop
  | unreadable {exc : Exc} (hschema : a.sourceSchema = .error exc)
      (hsource : p.source.getTableSchema tableName w = (.raised exc, w'))
  | existsRaises {src : TableSchema} {w₁ : W} {exc : Exc} (hschema : a.sourceSchema = .ok src)
      (hsource : p.source.getTableSchema tableName w = (.returned src, w₁))
      (hexists : a.tableExists = .error exc)
      (hasked : p.destination.tableExists tableName w₁ = (.raised exc, w'))
  | absent {src : TableSchema} {w₁ : W} (hschema : a.sourceSchema = .ok src)
      (hsource : p.source.getTableSchema tableName w = (.returned src, w₁))
      (hexists : a.tableExists = .ok false)
      (hasked : p.destination.tableExists tableName w₁ = (.returned false, w'))
  | unreadableDestination {src : TableSchema} {w₁ w₂ : W} {exc : Exc}
      (hschema : a.sourceSchema = .ok src)
      (hsource : p.source.getTableSchema tableName w = (.returned src, w₁))
      (hexists : a.tableExists = .ok true)
      (hasked : p.destination.tableExists tableName w₁ = (.returned true, w₂))
      (hdest : a.destinationSchema = .error exc)
      (hread : p.destination.getTableSchema tableName w₂ = (.raised exc, w'))
  | present {src dest : TableSchema} {w₁ w₂ : W} (hschema : a.sourceSchema = .ok src)
      (hsource : p.source.getTableSchema tableName w = (.returned src, w₁))
      (hexists : a.tableExists = .ok true)
      (hasked : p.destination.tableExists tableName w₁ = (.returned true, w₂))
      (hdest : a.destinationSchema = .ok dest)
      (hread : p.destination.getTableSchema tableName w₂ = (.returned dest, w'))

/-- Asked about one table after the other, the databases give these answers. -/
inductive Hears (p : MigrationPlanner W) : W → List (String × TableAnswers) → Prop
  | nil (w : W) : Hears p w []
  | cons {tableName : String} {a : TableAnswers} {w w' : W} {rest : List (String × TableAnswers)}
      (hfirst : p.Heard tableName a w w') (hrest : Hears p w' rest) :
      Hears p w ((tableName, a) :: rest)

/-- What a table with these answers adds to the plan. -/
def contribution (tableName : String) (a : TableAnswers) : MigrationPlan :=
  match a.sourceSchema, a.tableExists, a.destinationSchema with
  | .error exc, _, _ => MigrationPlan.empty.warn (sourceReadWarning tableName exc)
  | .ok src, .ok true, .ok dest => planTable tableName src (some dest) .empty
  | .ok src, .ok true, .error exc =>
    planTable tableName src none (MigrationPlan.empty.warn (destinationReadWarning tableName exc))
  | .ok src, _, _ => planTable tableName src none .empty

theorem warn_append (plan next : MigrationPlan) (warning : String) :
    (plan.append next).warn warning = plan.append (next.warn warning) := by
  simp [MigrationPlan.warn, MigrationPlan.append]

theorem append_empty (plan : MigrationPlan) : plan.append .empty = plan := by
  simp [MigrationPlan.append, MigrationPlan.empty]

/-- The entry of a table does not depend on what was planned before it. -/
theorem planTable_append (tableName : String) (src : TableSchema) (dest : Option TableSchema)
    (plan next : MigrationPlan) :
    planTable tableName src dest (plan.append next) =
      plan.append (planTable tableName src dest next) := by
  unfold planTable
  cases validateSchemaCompatibility src dest with
  | ok warnings => simp [MigrationPlan.append, Nat.add_assoc]
  | error exc => simp [MigrationPlan.append]

section step

variable {p : MigrationPlanner W} {tableName : String} {a : TableAnswers} {w w₁ w₂ w' : W}
  {plan : MigrationPlan} {src : TableSchema}

theorem buildPlanStep_unreadable {exc : Exc}
    (h : p.source.getTableSchema tableName w = (.raised exc, w')) :
    p.buildPlanStep plan tableName w =
      (.returned (.again (plan.warn (sourceReadWarning tableName exc))), w') := by
  have hread : Call.tryExcept (do
        let s ← p.source.getTableSchema tableName
        pure (Except.ok s : Except Exc TableSchema)) (fun exc => pure (Except.error exc)) w =
      (.returned (.error exc), w') := by
    rw [Call.tryExcept, Call.bind_of_raised h]
    rfl
  rw [buildPlanStep, Call.bind_of_returned hread]
  rfl

theorem buildPlanStep_readable (h : p.source.getTableSchema tableName w = (.returned src, w₁)) :
    p.buildPlanStep plan tableName w = (do
      let (destSchema, plan) ← p.readDestination tableName plan
      pure (Pass.again (planTable tableName src destSchema plan))) w₁ := by
  have hread : Call.tryExcept (do
        let s ← p.source.getTableSchema tableName
        pure (Except.ok s : Except Exc TableSchema)) (fun exc => pure (Except.error exc)) w =
      (.returned (.ok src), w₁) := by
    rw [Call.tryExcept, Call.bind_of_returned h]
    rfl
  rw [buildPlanStep, Call.bind_of_returned hread]

theorem readDestination_absent
    (h : p.destination.tableExists tableName w₁ = (.returned false, w')) :
    p.readDestination tableName plan w₁ = (.returned (none, plan), w') := by
  rw [readDestination, Call.bind_of_returned h]
  rfl

theorem readDestination_unreadable {exc : Exc}
    (h : p.destination.tableExists tableName w₁ = (.returned true, w₂))
    (hread : p.destination.getTableSchema tableName w₂ = (.raised exc, w')) :
    p.readDestination tableName plan w₁ =
      (.returned (none, plan.warn (destinationReadWarning tableName exc)), w') := by
  rw [readDestination, Call.bind_of_returned h, if_pos rfl, Call.tryExcept,
    Call.bind_of_raised hread]
  rfl

theorem readDestination_present {dest : TableSchema}
    (h : p.destination.tableExists tableName w₁ = (.returned true, w₂))
    (hread : p.destination.getTableSchema tableName w₂ = (.returned dest, w')) :
    p.readDestination tableName plan w₁ = (.returned (some dest, plan), w') := by
  rw [readDestination, Call.bind_of_returned h, if_pos rfl, Call.tryExcept,
    Call.bind_of_returned hread]
  rfl

theorem buildPlanStep_of_heard (h : p.Heard tableName a w w') (hok : ¬ a.ExistsRaises)
    (plan : MigrationPlan) : p.buildPlanStep plan tableName w =
      (.returned (.again (plan.append (contribution tableName a))), w') := by
  cases h with
  | unreadable hschema hsource =>
    rw [buildPlanStep_unreadable hsource, contribution, hschema, ← warn_append, append_empty]
  | existsRaises hschema hsource hexists hasked => exact absurd ⟨⟨_, hschema⟩, _, hexists⟩ hok
  | absent hschema hsource hexists hasked =>
    rw [buildPlanStep_readable hsource, Call.bind_of_returned (readDestination_absent hasked),
      contribution, hschema, hexists]
    dsimp only
    rw [← planTable_append, append_empty]
    rfl
  | unreadableDestination hschema hsource hexists hasked hdest hread =>
    rw [buildPlanStep_readable hsource,
      Call.bind_of_returned (readDestination_unreadable hasked hread), contribution, hschema,
      hexists, hdest]
    dsimp only
    rw [← planTable_append, ← warn_append, append_empty]
    rfl
  | present hschema hsource hexists hasked hdest hread =>
    rw [buildPlanStep_readable hsource, Call.bind_of_returned (readDestination_present hasked hread),
      contribution, hschema, hexists, hdest]
    dsimp only
    rw [← planTable_append, append_empty]
    rfl

theorem buildPlanStep_raises (h : p.Heard tableName a w w') (hraises : a.ExistsRaises)
    (plan : MigrationPlan) : ∃ exc, p.buildPlanStep plan tableName w = (.raised exc, w') := by
  obtain ⟨⟨src, hsrc⟩, exc, hexc⟩ := hraises
  cases h with
  | unreadable hschema hsource =>
    rw [hsrc] at hschema
    cases hschema
  | existsRaises hschema hsource hexists hasked =>
    exact ⟨_, (buildPlanStep_readable hsource).trans
      (Call.bind_of_raised (Call.bind_of_raised hasked))⟩
  | absent hschema hsource hexists hasked =>
    rw [hexc] at hexists
    cases hexists
  | unreadableDestination hschema hsource hexists hasked hdest hread =>
    rw [hexc] at hexists
    cases hexists
  | present hschema hsource hexists hasked hdest hread =>
    rw [hexc] at hexists
    cases hexists

end step

/-- Its answers are what the databases of a table say. -/
theorem heard_planner (a : TableAnswers) (tableName : String) :
    (a.planner tableName).Heard tableName a () () := by
  have hsource : (a.planner tableName).source.getTableSchema tableName =
      Call.ofExcept a.sourceSchema := rfl
  have hexists : (a.planner tableName).destination.tableExists tableName =
      Call.ofExcept a.tableExists := rfl
  have hdest : (a.planner tableName).destination.getTableSchema tableName =
      Call.ofExcept a.destinationSchema := rfl
  cases hs : a.sourceSchema with
  | error exc => exact .unreadable hs (by rw [hsource, hs]; rfl)
  | ok src =>
    cases he : a.tableExists with
    | error exc => exact .existsRaises hs (by rw [hsource, hs]; rfl) he (by rw [hexists, he]; rfl)
    | ok there =>
      cases there with
      | false => exact .absent hs (by rw [hsource, hs]; rfl) he (by rw [hexists, he]; rfl)
      | true =>
        cases hd : a.destinationSchema with
        | error exc =>
          exact .unreadableDestination hs (by rw [hsource, hs]; rfl) he (by rw [hexists, he]; rfl)
            hd (by rw [hdest, hd]; rfl)
        | ok dest =>
          exact .present hs (by rw [hsource, hs]; rfl) he (by rw [hexists, he]; rfl)
            hd (by rw [hdest, hd]; rfl)

theorem alone_eq_contribution (tableName : String) {a : TableAnswers} (hok : ¬ a.ExistsRaises) :
    a.alone tableName = contribution tableName a := by
  have hstep := buildPlanStep_of_heard (heard_planner a tableName) hok .empty
  have hplan : (a.planner tableName).buildPlan () =
      (.returned (MigrationPlan.empty.append (contribution tableName a)), ()) := by
    change Call.forEach (a.planner tableName).buildPlanStep [tableName] .empty () = _
    rw [Call.forEach, Call.bind_of_returned hstep]
    rfl
  rw [TableAnswers.alone, hplan]
  simp [MigrationPlan.append, MigrationPlan.empty]

/-- Every table that is asked about adds its own plan to what was planned before it. -/
theorem forEach_of_hears {p : MigrationPlanner W} {w : W} {asked : List (String × TableAnswers)}
    (h : p.Hears w asked) (hok : ∀ q ∈ asked, ¬ q.2.ExistsRaises) (plan : MigrationPlan) :
    ∃ w', Call.forEach p.buildPlanStep (asked.map Prod.fst) plan w =
      (.returned (plan.append {
        tables := asked.flatMap fun q => (q.2.alone q.1).tables
        totalRows := (asked.map fun q => (q.2.alone q.1).totalRows).sum
        warnings := asked.flatMap fun q => (q.2.alone q.1).warnings }), w') := by
  induction h generalizing plan with
  | nil w => exact ⟨w, by simp [MigrationPlan.append]; rfl⟩
  | @cons tableName a w w₁ rest hfirst hrest ih =>
    have hguarded := hok _ List.mem_cons_self
    have hstep := buildPlanStep_of_heard hfirst hguarded plan
    obtain ⟨w', hloop⟩ := ih (fun q hq => hok q (List.mem_cons_of_mem _ hq))
      (plan.append (contribution tableName a))
    refine ⟨w', ?_⟩
    rw [List.map_cons, Call.forEach, Call.bind_of_returned hstep]
    refine hloop.trans ?_
    simp [MigrationPlan.append, alone_eq_contribution tableName hguarded, Nat.add_assoc]

theorem forEach_raises {p : MigrationPlanner W} {w : W} {asked : List (String × TableAnswers)}
    (h : p.Hears w asked) (hraises : ∃ q ∈ asked, q.2.ExistsRaises) (plan : MigrationPlan) :
    ∃ exc w', Call.forEach p.buildPlanStep (asked.map Prod.fst) plan w = (.raised exc, w') := by
  induction h generalizing plan with
  | nil w =>
    obtain ⟨q, hq, -⟩ := hraises
    cases hq
  | @cons tableName a w w₁ rest hfirst hrest ih =>
    rw [List.map_cons, Call.forEach]
    by_cases hhere : a.ExistsRaises
    · obtain ⟨exc, hstep⟩ := buildPlanStep_raises hfirst hhere plan
      exact ⟨exc, w₁, Call.bind_of_raised hstep⟩
    · have hlater : ∃ q ∈ rest, q.2.ExistsRaises := by
        obtain ⟨q, hq, hraised⟩ := hraises
        rcases List.mem_cons.mp hq with heq | hmem
        · subst heq
          exact absurd hraised hhere
        · exact ⟨q, hmem, hraised⟩
      rw [Call.bind_of_returned (buildPlanStep_of_heard hfirst hhere plan)]
      exact ih hlater _

/-- Databases whose calls end have an answer for every table that is asked about. -/
theorem exists_hears (p : MigrationPlanner W)
    (hsource : ∀ t, Call.Ends (fun _ => True) (p.source.getTableSchema t))
    (hexists : ∀ t, Call.Ends (fun _ => True) (p.destination.tableExists t))
    (hdest : ∀ t, Call.Ends (fun _ => True) (p.destination.getTableSchema t))
    (names : List String) (w : W) : ∃ asked, asked.map Prod.fst = names ∧ p.Hears w asked := by
  induction names generalizing w with
  | nil => exact ⟨[], rfl, .nil w⟩
  | cons name names ih =>
    have hfirst : ∃ a w', p.Heard name a w w' := by
      have hunheard : Exc := ⟨.other, ""⟩
      rcases (hsource name).outcome w with ⟨src, w₁, hs⟩ | ⟨exc, w', hs⟩
      · rcases (hexists name).outcome w₁ with ⟨there, w₂, he⟩ | ⟨exc, w', he⟩
        · cases there with
          | false => exact ⟨⟨.ok src, .ok false, .error hunheard⟩, w₂, .absent rfl hs rfl he⟩
          | true =>
            rcases (hdest name).outcome w₂ with ⟨dest, w', hd⟩ | ⟨exc, w', hd⟩
            · exact ⟨⟨.ok src, .ok true, .ok dest⟩, w', .present rfl hs rfl he rfl hd⟩
            · exact ⟨⟨.ok src, .ok true, .error exc⟩, w',
                .unreadableDestination rfl hs rfl he rfl hd⟩
        · exact ⟨⟨.ok src, .error exc, .error hunheard⟩, w', .existsRaises rfl hs rfl he⟩
      · exact ⟨⟨.error exc, .error hunheard, .error hunheard⟩, w', .unreadable rfl hs⟩
    obtain ⟨a, w', hheard⟩ := hfirst
    obtain ⟨asked, hnames, hears⟩ := ih w'
    exact ⟨(name, a) :: asked, by rw [List.map_cons, hnames], .cons hheard hears⟩

/-- The plan is there, and every table stands in it as in the plan of that table alone. -/
def PlansApart (p : MigrationPlanner W) (w : W) (asked : List (String × TableAnswers)) : Prop :=
  ∃ plan w', p.buildPlan w = (.returned plan, w') ∧
    plan.tables = asked.flatMap (fun q => (q.2.alone q.1).tables) ∧
    plan.totalRows = (asked.map fun q => (q.2.alone q.1).totalRows).sum ∧
    plan.warnings = asked.flatMap fun q => (q.2.alone q.1).warnings

/-- The tables of a list are planned apart from each other just when `table_exists` raises for none
whose source schema was read. -/
theorem plansApart_iff (p : MigrationPlanner W) {w : W} {asked : List (String × TableAnswers)}
    (hnames : p.tableNames = asked.map Prod.fst) (h : p.Hears w asked) :
    p.PlansApart w asked ↔ ∀ q ∈ asked, ¬ q.2.ExistsRaises := by
  rw [PlansApart, buildPlan, hnames]
  constructor
  · intro hplan q hq hraises
    obtain ⟨plan, w', hrun, -⟩ := hplan
    obtain ⟨exc, w'', hraised⟩ := forEach_raises h ⟨q, hq, hraises⟩ .empty
    rw [hraised] at hrun
    cases hrun
  · intro hok
    obtain ⟨w', hrun⟩ := forEach_of_hears h hok .empty
    exact ⟨_, w', hrun, by simp [MigrationPlan.append, MigrationPlan.empty]⟩

private def orders : TableSchema where
  name := "orders"
  columns := [{ name := "id", dataType := "INTEGER" }]
  rowCount := 5

private def refused : Exc := ⟨.other, "connection refused"⟩

/-- The schema of `orders` is read, that of any other table is not. -/
private def ordersPlanner (tableExists : Except Exc Bool) : MigrationPlanner Unit where
  source := { Engine.provider Engine.idle with
    getTableSchema := fun name => if name = "orders" then pure orders else Call.raise refused }
  destination := { Engine.provider Engine.idle with
    getTableSchema := fun _ => Call.raise refused
    tableExists := fun _ => Call.ofExcept tableExists }
  tableNames := ["orders", "gone"]

private def ordersAnswers (tableExists : Except Exc Bool) : List (String × TableAnswers) :=
  [("orders", ⟨.ok orders, tableExists, .error refused⟩),
    ("gone", ⟨.error refused, tableExists, .error refused⟩)]

theorem plansApart_iff_orders :
    (ordersPlanner (.ok true)).PlansApart () (ordersAnswers (.ok true)) := by
  refine (plansApart_iff _ rfl ?_).mpr ?_
  · exact .cons (.unreadableDestination rfl rfl rfl rfl rfl rfl) (.cons (.unreadable rfl rfl)
      (.nil ()))
  · intro q hq hraises
    obtain ⟨-, exc, hexc⟩ := hraises
    rcases List.mem_cons.mp hq with heq | hmem
    · rw [heq] at hexc
      cases hexc
    · rw [List.mem_singleton.mp hmem] at hexc
      cases hexc

/-- `table_exists` raises for the first table, and there is no plan for any. -/
theorem exists_raises_no_plan :
    (ordersPlanner (.error refused)).Hears () (ordersAnswers (.error refused)) ∧
    ¬ (ordersPlanner (.error refused)).PlansApart () (ordersAnswers (.error refused)) := by
  refine ⟨.cons (.existsRaises rfl rfl rfl rfl) (.cons (.unreadable rfl rfl) (.nil ())), ?_⟩
  intro hplan
  obtain ⟨plan, w', hrun, -⟩ := hplan
  have hraised : (ordersPlanner (.error refused)).buildPlan () = (.raised refused, ()) := rfl
  rw [hraised] at hrun
  cases hrun

end MigrationPlanner

end DataBridge
