import DataBridge.Framework.Commuting
import DataBridge.Migration.Cascade
import DataBridge.Migration.IsolatedTables
import DataBridge.Migration.StaticPlan
import Mathlib.Data.Finset.Basic

namespace DataBridge

namespace Constraints

variable (k : Constraints)

/-- The rows of the table after a statement, from those before it. -/
def addRows (content : Tables) (t : String) (rows : List Row) : Except Exc (List Row) :=
  rows.foldlM (k.addRow content t) (content t)

def executemany (q : Insert) : Call Exc Tables Unit := fun content =>
  match k.addRows content q.table q.rows with
  | .ok own => (.returned (), Function.update content q.table own)
  | .error exc => (.raised exc, content)

/-- An insert into `t` reads `t` and the tables it refers to. -/
def Reads (t u : String) : Prop := u = t ∨ ∃ fk ∈ k.fks, fk.child = t ∧ fk.parent = u

/-- One of the two tables refers to the other. -/
def Related (t u : String) : Prop :=
  ∃ fk ∈ k.fks, (fk.child = t ∧ fk.parent = u) ∨ (fk.child = u ∧ fk.parent = t)

theorem not_reads {t u : String} (hne : t ≠ u) (h : ¬ k.Related t u) :
    ¬ k.Reads t u ∧ ¬ k.Reads u t := by
  constructor
  · intro hr
    rcases hr with heq | ⟨fk, hfk, hfkt⟩
    · exact hne heq.symm
    · exact h ⟨fk, hfk, Or.inl hfkt⟩
  · intro hr
    rcases hr with heq | ⟨fk, hfk, hfku⟩
    · exact hne heq
    · exact h ⟨fk, hfk, Or.inr hfku⟩

/-- Every row that refers to a parent has it. -/
def Satisfied (content : Tables) : Prop :=
  ∀ fk ∈ k.fks, ∀ row ∈ content fk.child, (∀ c ∈ fk.childCols, row.get c ≠ .none) →
    ∃ p ∈ content fk.parent, fk.refers row p = true

section reads

variable {k} {content content' : Tables} {t : String}

theorem violates_congr (h : ∀ u, k.Reads t u → content u = content' u) (own : List Row)
    (row : Row) : k.violates content t own row = k.violates content' t own row := by
  rw [violates, violates, Bool.eq_iff_iff, List.any_eq_true, List.any_eq_true]
  refine exists_congr fun fk => and_congr_right fun hfk => ?_
  by_cases hchild : fk.child = t
  · rw [h fk.parent (Or.inr ⟨fk, hfk, hchild, rfl⟩)]
  · simp [hchild]

/-- Nothing but what it reads decides an insert. -/
theorem addRows_congr (h : ∀ u, k.Reads t u → content u = content' u) (rows : List Row) :
    k.addRows content t rows = k.addRows content' t rows := by
  have hrow : k.addRow content t = k.addRow content' t := by
    funext own row
    rw [addRow, addRow, violates_congr h]
  rw [addRows, addRows, hrow, h t (Or.inl rfl)]

end reads

end Constraints

/-- A migration over calls of which none raises but an insert that violates a foreign key. Creating
a table that is absent changes no rows. -/
structure ForeignKeyRun (X : Type) extends Constraints, Catalogues where
  rows : Tables
  settings : MigrationSettings
  untruncated : settings.truncateDestination = false
  ready : settings.includeSchema = true ∨ ∀ t, present t = true
  onProgress : Option (String → Nat → Nat → Option String → X → X) := none
  onLog : Option (String → String → Option String → X → X) := none
  sleep : Nat → X → X := fun _ e => e

variable {X : Type}

namespace ForeignKeyRun

variable (c : ForeignKeyRun X)

def source : BaseDatabaseProvider Tables :=
  { Engine.provider { Engine.idle with
      fetch := fun q => pure (selectRows (c.rows q.table) q) } with
    getTableSchema := fun t => Call.ofExcept (c.sourceSchema t) }

def destination : BaseDatabaseProvider Tables :=
  { Engine.provider { Engine.idle with executemany := c.executemany } with
    getTableSchema := fun t => Call.ofExcept (c.destinationSchema t)
    tableExists := fun t => pure (c.present t)
    createTable := fun _ => pure () }

def site (plan : MigrationPlan) : Site Tables X where
  source := c.source
  destination := c.destination
  settings := c.settings
  plan := plan
  onProgress := c.onProgress.map fun f t inTable total error => quietly (f t inTable total error)
  onLog := c.onLog.map fun f level message t => quietly (f level message t)
  sleep seconds := quietly (c.sleep seconds)

def executor (plan : MigrationPlan) : MigrationExecutor (World Tables X) := (c.site plan).executor

def planner (tableNames : List String) : MigrationPlanner (World Tables X) :=
  ⟨(c.executor .empty).source, (c.executor .empty).destination, tableNames⟩

/-- Planning and running a list of requested tables. -/
def planAndRun (fuel : Nat) (tableNames : List String) : Call Exc (World Tables X) ExecResult := do
  let plan ← (c.planner tableNames).buildPlan
  Call.zoom (fun w => { world := w }) (fun s _ => s.world) ((c.executor plan).run fuel)

theorem reads_catalogues (tableNames : List String) :
    (c.planner tableNames).Reads c.toCatalogues := by
  refine ⟨fun t => ?_, fun t => rfl, fun t => ?_⟩
  · funext w
    change World.onData (Call.ofExcept (c.sourceSchema t)) w = _
    cases c.sourceSchema t with
    | ok schema => rfl
    | error exc => rfl
  · funext w
    change World.onData (Call.ofExcept (c.destinationSchema t)) w = _
    cases c.destinationSchema t with
    | ok schema => rfl
    | error exc => rfl

/-- The plan of a list of names. -/
def planOf (tableNames : List String) : MigrationPlan :=
  tableNames.foldl (MigrationPlanner.planStep c.toCatalogues) .empty

theorem buildPlan_planOf (tableNames : List String) (w : World Tables X) :
    (c.planner tableNames).buildPlan w = (.returned (c.planOf tableNames), w) :=
  (c.reads_catalogues tableNames).buildPlan w

theorem planOf_tables (tableNames : List String) :
    (c.planOf tableNames).tables =
      tableNames.flatMap (MigrationPlanner.planned c.toCatalogues) := by
  rw [planOf, MigrationPlanner.foldl_planStep_tables]
  exact List.nil_append _

open Call (Respects respects_pure Returns Ends)
open ExecState (await)

/-- Two contents between which the calls for table `t` cannot tell; their other tables are those of
`d` and `d'`. -/
structure Alike (t : String) (d d' content content' : Tables) : Prop where
  agree : ∀ u, c.Reads t u → content u = content' u
  left : ∀ u, u ≠ t → content u = d u
  right : ∀ u, u ≠ t → content' u = d' u

section alike

variable {t : String} {d d' : Tables}

theorem respects_executemany {q : Insert} (hq : q.table = t) :
    Respects (c.Alike t d d') (c.executemany q) (c.executemany q) := by
  subst hq
  intro content content' h
  have hrows := Constraints.addRows_congr h.agree q.rows
  rw [Constraints.executemany, Constraints.executemany, hrows]
  cases c.addRows content' q.table q.rows with
  | error exc => exact ⟨rfl, h⟩
  | ok own =>
    refine ⟨rfl, ?_, ?_, ?_⟩
    · intro u hu
      by_cases hut : u = q.table
      · subst hut
        simp
      · simpa [hut] using h.agree u hu
    · exact fun u hut => by simpa [hut] using h.left u hut
    · exact fun u hut => by simpa [hut] using h.right u hut

theorem respects_insertBatch (rows : List Row) :
    Respects (c.Alike t d d') (c.destination.insertBatch t rows none)
      (c.destination.insertBatch t rows none) := by
  cases rows with
  | nil => exact respects_pure 0
  | cons first rest =>
    have hrun : Respects (c.Alike t d d')
        (c.executemany (Insert.ofRows t none first (first :: rest))) _ :=
      c.respects_executemany rfl
    exact hrun.bind fun _ => respects_pure (first :: rest).length

/-- What the contents cannot tell apart, calls on them cannot. -/
theorem respects_onData {α : Type} {call : Call Exc Tables α}
    (h : Respects (c.Alike t d d') call call) :
    Respects (fun s s' : SiteState Tables X => c.Alike t d d' s.world.data s'.world.data)
      (await (World.onData call)) (await (World.onData call)) := by
  have hworld : Respects (fun w w' : World Tables X => c.Alike t d d' w.data w'.data)
      (World.onData call) (World.onData call) := h.zoom (fun _ _ h => h) (fun _ _ _ _ _ h => h)
  exact hworld.zoom (fun _ _ h => h) (fun _ _ _ _ _ h => h)

/-- The executor does the same for a table in contents alike for it, whatever its plan. -/
theorem related_executor (plan plan' : MigrationPlan) (tp : MigrationTablePlan) :
    MigrationExecutor.Related
      (fun s s' : SiteState Tables X => c.Alike tp.tableName d d' s.world.data s'.world.data)
      (c.executor plan) (c.executor plan') tp where
  includeSchema := rfl
  includeData := rfl
  truncate := rfl
  maxRetries := rfl
  createTable := c.respects_onData (respects_pure ())
  truncateTable := c.respects_onData (Call.respects_raise _)
  fetchBatch _ _ := c.respects_onData (respects_pure _)
  insertBatch rows := c.respects_onData (c.respects_insertBatch rows)
  log level message table := by
    unfold MigrationExecutor.log executor Site.executor site
    cases c.onLog with
    | none => exact respects_pure ()
    | some f => exact fun _ _ h => ⟨rfl, h⟩
  reportProgress n := by
    unfold MigrationExecutor.reportProgress executor Site.executor site
    cases c.onProgress with
    | none => exact respects_pure ()
    | some f => exact fun _ _ h => ⟨rfl, h⟩
  sleep _ := fun _ _ h => ⟨rfl, h⟩
  addRows _ _ _ h := h

end alike

theorem ends_executemany (q : Insert) : Ends (fun _ => True) (c.executemany q) := by
  intro d
  rw [Call.wp, Constraints.executemany]
  cases c.addRows d q.table q.rows with
  | ok own => trivial
  | error exc => trivial

theorem steady_executor (plan : MigrationPlan) (hbatch : 0 < c.settings.batchSize)
    (tp : MigrationTablePlan) : (c.executor plan).Steady (c.rows tp.tableName) tp where
  createTable := (Call.returns_pure trivial).ends.zoom
  truncateTable := fun _ => trivial
  fetchBatch _ := fun _ => rfl
  insertBatch rows := by
    cases rows with
    | nil => exact (Call.returns_pure trivial).ends.zoom
    | cons first rest =>
      have hinsert : Ends (fun _ => True)
          (c.destination.insertBatch tp.tableName (first :: rest) none) :=
        (c.ends_executemany _).bind fun _ _ => (Call.returns_pure trivial).ends
      have hworld : Ends (fun _ => True) (World.onData (X := X)
          (c.destination.insertBatch tp.tableName (first :: rest) none)) := hinsert.zoom
      exact hworld.zoom
  log level message table := by
    unfold MigrationExecutor.log executor Site.executor site
    cases c.onLog with
    | none => exact Call.returns_pure trivial
    | some f => exact (Call.returns_modify _).zoom
  reportProgress n := by
    unfold MigrationExecutor.reportProgress executor Site.executor site
    cases c.onProgress with
    | none => exact Call.returns_pure trivial
    | some f => exact (Call.returns_read _).bind fun _ _ => (Call.returns_modify _).zoom
  sleep _ := (Call.returns_modify _).zoom
  batchSize := hbatch

/-- The tables after the copy of one of them, and its success; the plan and what else the world
holds do not matter. -/
def copied (fuel : Nat) (e : X) (tp : MigrationTablePlan) (content : Tables) :
    Outcome Exc Bool × Tables :=
  let r := (c.executor .empty).migrateTable fuel tp ⟨⟨content, e⟩, 0⟩
  (r.1, r.2.world.data)

section copied

variable (fuel : Nat) (e : X) (tp : MigrationTablePlan)

/-- A run for one table agrees with `copied` from tables that are the same to it, and leaves the
others alone. -/
theorem migrateTable_copied (plan : MigrationPlan) (d : Tables) (s : SiteState Tables X)
    (h : ∀ u, c.Reads tp.tableName u → s.world.data u = d u) :
    ((c.executor plan).migrateTable fuel tp s).1 = (c.copied fuel e tp d).1 ∧
      c.Alike tp.tableName s.world.data d ((c.executor plan).migrateTable fuel tp s).2.world.data
        (c.copied fuel e tp d).2 := by
  have hrelated : MigrationExecutor.Related (fun s₁ s₂ : SiteState Tables X =>
      c.Alike tp.tableName s.world.data d s₁.world.data s₂.world.data)
      (c.executor plan) (c.executor .empty) tp := c.related_executor plan .empty tp
  obtain ⟨hend, halike⟩ := hrelated.migrateTable fuel s ⟨⟨d, e⟩, 0⟩ ⟨h, fun _ _ => rfl, fun _ _ => rfl⟩
  exact ⟨hend, halike.agree, halike.left, halike.right⟩

theorem copied_frame (d : Tables) {u : String} (hu : u ≠ tp.tableName) :
    (c.copied fuel e tp d).2 u = d u :=
  (c.migrateTable_copied fuel e tp .empty d ⟨⟨d, e⟩, 0⟩ fun _ _ => rfl).2.right u hu

theorem copied_congr {d d' : Tables} (h : ∀ u, c.Reads tp.tableName u → d u = d' u) :
    (c.copied fuel e tp d).1 = (c.copied fuel e tp d').1 ∧
      (c.copied fuel e tp d).2 tp.tableName = (c.copied fuel e tp d').2 tp.tableName := by
  obtain ⟨hend, halike⟩ := c.migrateTable_copied fuel e tp .empty d' ⟨⟨d, e⟩, 0⟩ h
  exact ⟨hend, halike.agree tp.tableName (Or.inl rfl)⟩

/-- Copies of two tables neither of which refers to the other commute. -/
theorem copied_comm {tq : MigrationTablePlan} (hne : tp.tableName ≠ tq.tableName)
    (hfree : ¬ c.Related tp.tableName tq.tableName) (d : Tables) :
    (c.copied fuel e tp (c.copied fuel e tq d).2).1 = (c.copied fuel e tp d).1 ∧
      (c.copied fuel e tp (c.copied fuel e tq d).2).2 =
        (c.copied fuel e tq (c.copied fuel e tp d).2).2 := by
  obtain ⟨hpq, hqp⟩ := c.not_reads hne hfree
  have hp : ∀ u, c.Reads tp.tableName u → (c.copied fuel e tq d).2 u = d u := by
    intro u hu
    exact c.copied_frame fuel e tq d fun he => hpq (he ▸ hu)
  have hq : ∀ u, c.Reads tq.tableName u → (c.copied fuel e tp d).2 u = d u := by
    intro u hu
    exact c.copied_frame fuel e tp d fun he => hqp (he ▸ hu)
  obtain ⟨hend, hown⟩ := c.copied_congr fuel e tp hp
  obtain ⟨-, hownq⟩ := c.copied_congr fuel e tq hq
  refine ⟨hend, ?_⟩
  funext u
  by_cases hup : u = tp.tableName
  · subst hup
    rw [hown, c.copied_frame fuel e tq _ hne]
  · rw [c.copied_frame fuel e tp _ hup]
    by_cases huq : u = tq.tableName
    · subst huq
      exact hownq.symm
    · rw [c.copied_frame fuel e tq _ huq, c.copied_frame fuel e tq _ huq,
        c.copied_frame fuel e tp _ hup]

/-- What the migration of one entry of a plan makes of the tables and of the completed names. -/
def tableStep (st : Tables × Finset String) (tp : MigrationTablePlan) : Tables × Finset String :=
  if tp.status = .skipped then st
  else
    let r := c.copied fuel e tp st.1
    (r.2, if r.1 = .returned true then insert tp.tableName st.2 else st.2)

theorem tableStep_comm {tq : MigrationTablePlan} (hne : tp.tableName ≠ tq.tableName)
    (hfree : ¬ c.Related tp.tableName tq.tableName) (st : Tables × Finset String) :
    c.tableStep fuel e (c.tableStep fuel e st tq) tp =
      c.tableStep fuel e (c.tableStep fuel e st tp) tq := by
  have hfree' : ¬ c.Related tq.tableName tp.tableName := by
    intro h
    obtain ⟨fk, hfk, hpair⟩ := h
    exact hfree ⟨fk, hfk, hpair.symm⟩
  by_cases hp : tp.status = .skipped
  · simp [tableStep, hp]
  by_cases hq : tq.status = .skipped
  · simp [tableStep, hq]
  obtain ⟨hendp, hdata⟩ := c.copied_comm fuel e tp hne hfree st.1
  obtain ⟨hendq, -⟩ := c.copied_comm fuel e tq (Ne.symm hne) hfree' st.1
  simp only [tableStep, if_neg hp, if_neg hq]
  rw [hendp, hendq, hdata]
  congr 1
  split <;> split <;> simp [Finset.insert_comm]

/-- What one requested name makes of them. -/
def nameStep (st : Tables × Finset String) (tableName : String) : Tables × Finset String :=
  (MigrationPlanner.planned c.toCatalogues tableName).foldl (c.tableStep fuel e) st

theorem nameStep_comm {t u : String} (hne : t ≠ u) (hfree : ¬ c.Related t u)
    (st : Tables × Finset String) :
    c.nameStep fuel e (c.nameStep fuel e st u) t = c.nameStep fuel e (c.nameStep fuel e st t) u := by
  unfold nameStep
  rcases MigrationPlanner.planned_cases c.toCatalogues t with ⟨ht, -⟩ | ⟨tp, -, ht, htp, -⟩
  · rw [ht]
    rfl
  · rcases MigrationPlanner.planned_cases c.toCatalogues u with ⟨hu, -⟩ | ⟨tq, -, hu, htq, -⟩
    · rw [hu]
      rfl
    · subst htp htq
      rw [ht, hu]
      exact c.tableStep_comm fuel e tp hne hfree st

end copied

/-- Every row of the table that is copied transforms, and the fuel is enough for it. -/
structure Copies (fuel : Nat) (tp : MigrationTablePlan) : Prop where
  rows : tp.status ≠ .skipped → c.settings.includeData = true → ∀ row ∈ c.rows tp.tableName,
    ∃ new, transformRow (activeMappings tp.columnMappings) row = .ok new
  fuel : copyFuel (c.rows tp.tableName).length c.settings ≤ fuel

/-- The run goes on after the table: it succeeds, or failures are passed over. -/
def GoesOn (fuel : Nat) (e : X) (tp : MigrationTablePlan) : Prop :=
  c.settings.continueOnError = true ∨
    (tp.status ≠ .skipped → ∀ d, (c.copied fuel e tp d).1 = .returned true)

theorem keeps_log (plan : MigrationPlan) (d : Tables) (level message : String)
    (t : Option String) : Call.Keeps (fun s : SiteState Tables X => s.world.data = d)
      ((c.executor plan).log level message t) := by
  unfold MigrationExecutor.log executor Site.executor site
  cases c.onLog with
  | none => exact Call.keeps_pure ()
  | some f => exact fun _ h => h

section runs

variable (plan : MigrationPlan) (hbatch : 0 < c.settings.batchSize) {fuel : Nat} {e : X}
include hbatch

theorem runTable_step {tp : MigrationTablePlan} (htp : c.Copies fuel tp)
    (hgo : c.GoesOn fuel e tp) (results : ExecResult)
    (s : SiteState Tables X) : ∃ results' s',
    (c.executor plan).runTable fuel results tp s = (.returned (.again results'), s') ∧
    (s'.world.data, results'.completedTables.toFinset) =
      c.tableStep fuel e (s.world.data, results.completedTables.toFinset) tp := by
  have hsteady := c.steady_executor plan hbatch tp
  by_cases hstatus : tp.status = .skipped
  · obtain ⟨_, s', hlog, -⟩ := (hsteady.log "WARNING"
      s!"Skipping table '{tp.tableName}' (incompatible schema)" none).exists s
    have hdata := Call.wp_of_returned (c.keeps_log plan s.world.data _ _ _ s rfl) hlog
    refine ⟨LanedRun.filed results tp.tableName .skipped, s', ?_, ?_⟩
    · rw [MigrationExecutor.runTable, if_pos hstatus]
      exact Call.bind_of_returned hlog
    · rw [tableStep, if_pos hstatus]
      exact Prod.ext hdata rfl
  · obtain ⟨success, s', hrun, -⟩ := (hsteady.migrateTable (htp.rows hstatus) htp.fuel).exists s
    obtain ⟨hend, halike⟩ := c.migrateTable_copied fuel e tp plan s.world.data s fun _ _ => rfl
    rw [hrun] at hend halike
    have hdata : s'.world.data = (c.copied fuel e tp s.world.data).2 := by
      funext u
      by_cases hu : u = tp.tableName
      · exact hu ▸ halike.agree tp.tableName (Or.inl rfl)
      · exact (halike.left u hu).trans (halike.right u hu).symm
    have hafter : (c.executor plan).afterTable results tp success =
        .again (LanedRun.filed results tp.tableName (if success then .completed else .failed)) := by
      rcases hgo with hcontinue | hsuccess
      · exact LanedRun.afterTable_filed hcontinue results tp success
      · cases hend.trans (hsuccess hstatus s.world.data)
        rfl
    refine ⟨LanedRun.filed results tp.tableName (if success then .completed else .failed), s', ?_, ?_⟩
    · rw [MigrationExecutor.runTable_returned _ hstatus hrun, hafter]
    · rw [tableStep, if_neg hstatus, hdata]
      dsimp only
      rw [← hend]
      cases success with
      | false => rfl
      | true =>
        have hnames : (results.completedTables ++ [tp.tableName]).toFinset =
            insert tp.tableName results.completedTables.toFinset := by
          ext u
          rw [List.mem_toFinset, List.mem_append, List.mem_singleton, Finset.mem_insert,
            List.mem_toFinset]
          exact or_comm
        exact congrArg _ hnames

theorem forEach_steps {tables : List MigrationTablePlan}
    (htables : ∀ tp ∈ tables, c.Copies fuel tp ∧ c.GoesOn fuel e tp) (results : ExecResult)
    (s : SiteState Tables X) : ∃ results' s',
    Call.forEach ((c.executor plan).runTable fuel) tables results s = (.returned results', s') ∧
    (s'.world.data, results'.completedTables.toFinset) =
      tables.foldl (c.tableStep fuel e) (s.world.data, results.completedTables.toFinset) := by
  induction tables generalizing results s with
  | nil => exact ⟨results, s, rfl, rfl⟩
  | cons tp tables ih =>
    obtain ⟨hcopies, hgo⟩ := htables tp List.mem_cons_self
    obtain ⟨results₁, s₁, hrun, hstep⟩ := c.runTable_step plan hbatch hcopies hgo results s
    obtain ⟨results', s', hrest, hsteps⟩ := ih
      (fun tq htq => htables tq (List.mem_cons_of_mem tp htq)) results₁ s₁
    refine ⟨results', s', ?_, ?_⟩
    · rw [Call.forEach, Call.bind_of_returned hrun]
      exact hrest
    · rw [List.foldl_cons, ← hstep]
      exact hsteps

/-- Planning and running returns, and what it leaves is made name by name. -/
theorem planAndRun_steps {tableNames : List String}
    (hnames : ∀ t ∈ tableNames, ∀ tp ∈ MigrationPlanner.planned c.toCatalogues t,
      c.Copies fuel tp ∧ c.GoesOn fuel e tp) (w : World Tables X) : ∃ results w',
    c.planAndRun fuel tableNames w = (.returned results, w') ∧
    (w'.data, results.completedTables.toFinset) =
      tableNames.foldl (c.nameStep fuel e) (w.data, ∅) := by
  have htables : ∀ tp ∈ (c.planOf tableNames).tables, c.Copies fuel tp ∧ c.GoesOn fuel e tp := by
    intro tp htp
    rw [c.planOf_tables] at htp
    obtain ⟨t, ht, hmem⟩ := List.mem_flatMap.mp htp
    exact hnames t ht tp hmem
  obtain ⟨results, s, hrun, hsteps⟩ := c.forEach_steps (c.planOf tableNames) hbatch htables
    {} ⟨w, 0⟩
  refine ⟨{ results with totalRowsMigrated := s.totalRowsProcessed }, s.world, ?_, ?_⟩
  · have hwhole : (c.executor (c.planOf tableNames)).run fuel ⟨w, 0⟩ =
        (.returned { results with totalRowsMigrated := s.totalRowsProcessed }, s) :=
      Call.bind_of_returned hrun
    rw [planAndRun, Call.bind_of_returned (c.buildPlan_planOf tableNames w), Call.zoom, hwhole]
  · rw [c.planOf_tables, List.foldl_flatMap] at hsteps
    exact hsteps

/-- Two orders of the requested tables in which tables with a foreign key between them stand in the
same order complete the same tables and leave the same destination. -/
theorem order_of_unrelated_tables (hcontinue : c.settings.continueOnError = true)
    {l l' : List String} (horder : Commuting.SameOrder c.Related l l')
    (hcopies : ∀ t ∈ l, ∀ tp ∈ MigrationPlanner.planned c.toCatalogues t, c.Copies fuel tp)
    (w : World Tables X) : ∃ results w₁ results' w₁',
    c.planAndRun fuel l w = (.returned results, w₁) ∧
    c.planAndRun fuel l' w = (.returned results', w₁') ∧
    results.completedTables.toFinset = results'.completedTables.toFinset ∧
    w₁.data = w₁'.data := by
  obtain ⟨results, w₁, hrun, hsteps⟩ := c.planAndRun_steps (e := w.env) hbatch
    (fun t ht tp htp => ⟨hcopies t ht tp htp, Or.inl hcontinue⟩) w
  obtain ⟨results', w₁', hrun', hsteps'⟩ := c.planAndRun_steps (e := w.env) hbatch
    (fun t ht tp htp => ⟨hcopies t (horder.perm.symm.subset ht) tp htp, Or.inl hcontinue⟩) w
  have hsame : l.foldl (c.nameStep fuel w.env) (w.data, ∅) =
      l'.foldl (c.nameStep fuel w.env) (w.data, ∅) := by
    apply Commuting.foldl_eq horder
    exact fun t _ u _ hne hfree st => c.nameStep_comm fuel w.env hne hfree st
  have hends := hsteps.trans (hsame.trans hsteps'.symm)
  exact ⟨results, w₁, results', w₁', hrun, hrun', congrArg Prod.snd hends, congrArg Prod.fst hends⟩

end runs

end ForeignKeyRun

/-- Users, their orders, and scores of which the one value fits no integer. -/
private def shop (onViolation : OnViolation) : ForeignKeyRun Unit where
  fks := [⟨"orders", ["user"], "users", ["id"], .restricted, .restricted⟩]
  conflicts _ row old := row.get "id" = old.get "id"
  onViolation := onViolation
  sourceSchema t := .ok { name := t, columns := [{ name := "id", dataType := "INTEGER" },
    { name := "user", dataType := "INTEGER" }] }
  present _ := true
  destinationSchema t := .ok { name := t, columns := [{ name := "id", dataType := "INTEGER" },
    { name := "user", dataType := "INTEGER" }] }
  rows t :=
    if t = "orders" then [Dict.ofList [("id", .int 7), ("user", .int 1)]]
    else if t = "scores" then [Dict.ofList [("id", .float .nan), ("user", .none)]]
    else [Dict.ofList [("id", .int 1), ("user", .none)]]
  settings := { maxRetries := 0, continueOnError := true }
  untruncated := rfl
  ready := Or.inl rfl

private def shopRun (onViolation : OnViolation) (tableNames : List String) :
    Outcome Exc ExecResult × World Tables Unit :=
  (shop onViolation).planAndRun 4 tableNames ⟨fun _ => [], ()⟩

theorem order_of_unrelated_tables_shop : ∃ results w₁ results' w₁',
    shopRun .skips ["users", "tags", "orders"] = (.returned results, w₁) ∧
    shopRun .skips ["tags", "users", "orders"] = (.returned results', w₁') ∧
    results.completedTables.toFinset = results'.completedTables.toFinset ∧
    w₁.data = w₁'.data := by
  have horder : Commuting.SameOrder (shop .skips).Related ["users", "tags", "orders"]
      ["tags", "users", "orders"] := by
    refine ⟨by decide, ?_⟩
    intro a b hrelated
    obtain ⟨fk, hfk, hpair⟩ := hrelated
    cases List.mem_singleton.mp hfk
    rcases hpair with ⟨ha, hb⟩ | ⟨ha, hb⟩ <;> subst ha hb <;> decide
  have hall : ∀ t ∈ ["users", "tags", "orders"],
      ∀ tp ∈ MigrationPlanner.planned (shop .skips).toCatalogues t,
        (∀ row ∈ (shop .skips).rows tp.tableName,
          (transformRow (activeMappings tp.columnMappings) row).isOk = true) ∧
        copyFuel ((shop .skips).rows tp.tableName).length (shop .skips).settings ≤ 4 := by
    decide +kernel
  refine ForeignKeyRun.order_of_unrelated_tables (shop .skips) (by decide) rfl horder ?_ _
  intro t ht tp htp
  obtain ⟨hrows, hfuel⟩ := hall t ht tp htp
  refine ⟨?_, hfuel⟩
  intro _ _ row hrow
  have hok := hrows row hrow
  cases hnew : transformRow (activeMappings tp.columnMappings) row with
  | ok new => exact ⟨new, rfl⟩
  | error exc =>
    rw [hnew] at hok
    cases hok

/-- Orders before users: PostgreSQL fails the table, MySQL completes it without its row. And a row
that fits no integer ends the run before the tables that come after it. -/
theorem order_matters :
    (shop .raises).Satisfied (shop .raises).rows ∧
    (shopRun .raises ["users", "orders"]).1 = .returned
      { completedTables := ["users", "orders"], totalRowsMigrated := 2 } ∧
    (shopRun .raises ["orders", "users"]).1 = .returned
      { completedTables := ["users"], failedTables := ["orders"], totalRowsMigrated := 1 } ∧
    (shopRun .skips ["users", "orders"]).2.data "orders" = (shop .skips).rows "orders" ∧
    (shopRun .skips ["orders", "users"]).1 = .returned
      { completedTables := ["orders", "users"], totalRowsMigrated := 2 } ∧
    (shopRun .skips ["orders", "users"]).2.data "orders" = [] ∧
    (shopRun .raises ["users", "scores"]).2.data "users" = (shop .raises).rows "users" ∧
    (shopRun .raises ["scores", "users"]).2.data "users" = [] := by
  refine ⟨?_, by decide +kernel⟩
  intro fk hfk
  cases List.mem_singleton.mp hfk
  decide

end DataBridge
