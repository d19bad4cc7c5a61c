import DataBridge.Migration.TableOrder
import DataBridge.Services.CreateMigration

namespace DataBridge

variable {X : Type}

namespace ForeignKeyRun

variable (c : ForeignKeyRun X)

/-- No unique and no foreign keys, and a source that does not change: its counts are right, and the
rows of a table have the same columns. -/
structure Keyless : Prop where
  fks : c.fks = []
  conflicts : ∀ t row old, c.conflicts t row old = false
  counted : ∀ t schema, c.sourceSchema t = .ok schema → schema.rowCount = (c.rows t).length
  uniform : ∀ t, ∃ cols, ∀ row ∈ c.rows t, row.keys = cols

/-- The transformed rows of a requested name: of its entry in the plan, or none where there is
nothing to copy. -/
def Transformed (t : String) (target : List Row) : Prop :=
  (∃ tp, MigrationPlanner.planned c.toCatalogues t = [tp] ∧ tp.status ≠ .skipped ∧
    MigrationExecutor.transform tp.columnMappings (c.rows t) = .ok target) ∨
  ((∀ tp ∈ MigrationPlanner.planned c.toCatalogues t, tp.status = .skipped) ∧
    c.rows t = [] ∧ target = [])

/-- A name with rows to copy has one entry, which counts them. -/
theorem Transformed.cases {c : ForeignKeyRun X} {t : String} {target : List Row}
    (ht : c.Transformed t target) :
    (∃ tp src, MigrationPlanner.planned c.toCatalogues t = [tp] ∧ tp.tableName = t ∧
      tp.status ≠ .skipped ∧ c.sourceSchema t = .ok src ∧
      MigrationPlanner.plannedRows c.toCatalogues t = src.rowCount ∧
      MigrationExecutor.transform tp.columnMappings (c.rows t) = .ok target) ∨
    ((∀ tp ∈ MigrationPlanner.planned c.toCatalogues t, tp.status = .skipped) ∧
      MigrationPlanner.plannedRows c.toCatalogues t = 0 ∧ c.rows t = [] ∧ target = []) := by
  rcases MigrationPlanner.planned_cases c.toCatalogues t with ⟨hempty, hzero⟩ |
    ⟨tq, src, hone, hname, hsrc, hrows⟩
  · rcases ht with ⟨tp, hplanned, -, -⟩ | ⟨hskipped, hnone, htarget⟩
    · rw [hempty] at hplanned
      cases hplanned
    · exact Or.inr ⟨hskipped, hzero, hnone, htarget⟩
  · rcases ht with ⟨tp, hplanned, hstatus, htransform⟩ | ⟨hskipped, hnone, htarget⟩
    · rw [hone] at hplanned
      cases hplanned
      rw [if_neg hstatus] at hrows
      exact Or.inl ⟨tq, src, hone, hname, hstatus, hsrc, hrows, htransform⟩
    · rw [if_pos (hskipped tq (by simp [hone]))] at hrows
      exact Or.inr ⟨hskipped, hrows, hnone, htarget⟩

theorem not_callbacksRaise (plan : MigrationPlan) : ¬ (c.site plan).CallbacksRaise :=
  not_callbacksRaise_quietly rfl rfl fun _ => rfl

section keyless

variable {c} (h : c.Keyless)
include h

theorem Keyless.addRows (content : Tables) (t : String) (rows : List Row) :
    c.addRows content t rows = .ok (content t ++ rows) := by
  have hrow : ∀ own row, c.addRow content t own row = .ok (own ++ [row]) := by
    intro own row
    simp [Constraints.addRow, Constraints.violates, h.fks, h.conflicts]
  have hall : ∀ own, rows.foldlM (c.addRow content t) own = .ok (own ++ rows) := by
    induction rows with
    | nil => simp [pure, Except.pure]
    | cons row rows ih =>
      intro own
      rw [List.foldlM_cons, hrow]
      change rows.foldlM (c.addRow content t) (own ++ [row]) = _
      rw [ih, List.append_assoc]
      rfl
  exact hall (content t)

/-- What `insert_batch` does with rows that all have the columns of the first one. -/
theorem Keyless.insertBatch {t : String} {cols : List String} {batch : List Row}
    (hcols : ∀ r ∈ batch, r.keys = cols) (d : Tables) :
    c.destination.insertBatch t batch none d =
      (.returned batch.length, Function.update d t (d t ++ batch)) := by
  cases batch with
  | nil =>
    rw [List.append_nil, Function.update_eq_self]
    rfl
  | cons first rest =>
    have hrows : (Insert.ofRows t none first (first :: rest)).rows = first :: rest := by
      apply Insert.rows_ofRows
      intro r hr
      rw [hcols r hr, hcols first List.mem_cons_self]
    have hrun : c.executemany (Insert.ofRows t none first (first :: rest)) d =
        (.returned (), Function.update d t (d t ++ first :: rest)) := by
      rw [Constraints.executemany, h.addRows, hrows]
      rfl
    exact Call.bind_of_returned hrun

/-- The copy of one table adds its transformed rows to it, and succeeds. -/
theorem Keyless.dwp_migrateTable (plan : MigrationPlan) (hbatch : 0 < c.settings.batchSize)
    (hdata : c.settings.includeData = true) {tp : MigrationTablePlan} {target : List Row}
    {cols : List String} (hcols : ∀ r ∈ target, r.keys = cols)
    (htarget : MigrationExecutor.transform tp.columnMappings (c.rows tp.tableName) = .ok target)
    {fuel : Nat} (hfuel : copyFuel (c.rows tp.tableName).length c.settings ≤ fuel) (d : Tables)
    (n : Nat) :
    dwp ((c.executor plan).migrateTable fuel tp)
      ⟨fun ok d' _ => ok = true ∧
          d' = Function.update d tp.tableName (d tp.tableName ++ target),
        fun _ _ => False, False⟩ d n := by
  have hquiet := c.not_callbacksRaise plan
  have hsteps : CopySteps (c.site plan) tp.tableName target
      (fun o d' => d' = Function.update d tp.tableName (d tp.tableName ++ target.take o))
      (fun _ _ => False) := by
    refine ⟨?_, ?_, fun _ _ h => h.elim⟩
    · intro o d' _ hd
      have hwindow : ∀ r ∈ window target o c.settings.batchSize, r.keys = cols :=
        fun r hr => hcols r (List.mem_of_mem_drop (List.mem_of_mem_take hr))
      apply Call.wp_of_eq_returned (h.insertBatch hwindow d')
      have hnext := take_append_window target o c.settings.batchSize
      rw [hd, Function.update_self, Function.update_idem, List.append_assoc, hnext]
      rfl
    · intro o d' k _ hk _
      obtain ⟨e, exc, he⟩ := hk
      cases he
  have hstart : d = Function.update d tp.tableName (d tp.tableName ++ target.take 0) := by simp
  have hloop := dwp_copyLoop (c.site plan) tp (fun _ _ _ => rfl) htarget hbatch hsteps hfuel n
    hstart
  refine DataBridge.dwp_migrateTable (c.site plan) fuel tp (· = d) (fun _ => False) (· = d)
    (fun hc => (hquiet hc).elim) (fun _ => rfl) (fun _ => ⟨?_, rfl⟩)
    (fun _ _ hc => (hquiet hc).elim) (fun _ h => h.elim) (fun _ h _ => h) ?_
    (fun _ _ hc => (hquiet hc).elim) ?_ ?_
  · intro hraise
    obtain ⟨e, exc, he⟩ := hraise
    cases he
  · intro d' _ ht
    exact absurd (c.untruncated.symm.trans ht) (by decide)
  · intro d' _ hi
    exact absurd (hdata.symm.trans hi) (by decide)
  · intro d' hd _
    subst hd
    refine dwp_mono hloop ?_ (fun _ _ h => hquiet h.1)
    intro ok d'' m hend
    cases ok with
    | true =>
      refine ⟨rfl, ?_⟩
      rw [hend.1, List.take_length]
    | false =>
      obtain ⟨o, -, -, hfault | hnone, -⟩ := hend
      · obtain ⟨e, exc, he⟩ := hfault
        cases he
      · exact hnone.elim

/-- What an entry of the plan that is copied makes of the tables. -/
theorem Keyless.copied (hbatch : 0 < c.settings.batchSize) (hdata : c.settings.includeData = true)
    {tp : MigrationTablePlan} {target : List Row}
    (htarget : MigrationExecutor.transform tp.columnMappings (c.rows tp.tableName) = .ok target)
    {fuel : Nat} (hfuel : copyFuel (c.rows tp.tableName).length c.settings ≤ fuel) (e : X)
    (d : Tables) : c.copied fuel e tp d =
      (.returned true, Function.update d tp.tableName (d tp.tableName ++ target)) := by
  obtain ⟨cols, hcols⟩ : ∃ cols, ∀ r ∈ target, r.keys = cols := by
    rw [MigrationExecutor.transform] at htarget
    split at htarget
    · cases htarget
      exact h.uniform tp.tableName
    · exact applyMappings_keys htarget
  have hrun := h.dwp_migrateTable .empty hbatch hdata hcols htarget hfuel d 0 e
  obtain ⟨ok, s', hrun, hok, hdata'⟩ := Call.exists_of_wp hrun
  subst hok
  rw [ForeignKeyRun.copied, hrun]
  exact Prod.ext rfl hdata'

/-- A requested name adds its transformed rows to its table. -/
theorem Keyless.nameStep (hbatch : 0 < c.settings.batchSize) (hdata : c.settings.includeData = true)
    {t : String} {target : List Row} (htarget : c.Transformed t target) {fuel : Nat}
    (hfuel : copyFuel (c.rows t).length c.settings ≤ fuel) (e : X) (st : Tables × Finset String) :
    (c.nameStep fuel e st t).1 = Function.update st.1 t (st.1 t ++ target) := by
  rw [ForeignKeyRun.nameStep]
  rcases htarget.cases with ⟨tp, -, hplanned, hname, hstatus, -, -, htransform⟩ |
    ⟨hskipped, -, -, hnone⟩
  · subst hname
    rw [hplanned, List.foldl_cons, List.foldl_nil, tableStep, if_neg hstatus]
    rw [h.copied hbatch hdata htransform hfuel]
  · rw [hnone, List.append_nil, Function.update_eq_self]
    rcases MigrationPlanner.planned_cases c.toCatalogues t with ⟨hempty, -⟩ | ⟨tq, -, hone, -⟩
    · rw [hempty]
      rfl
    · rw [hone, List.foldl_cons, List.foldl_nil, tableStep]
      rw [if_pos (hskipped tq (by simp [hone]))]

/-- Each occurrence of a name adds its rows once. -/
theorem Keyless.count_foldl (hbatch : 0 < c.settings.batchSize)
    (hdata : c.settings.includeData = true) {names : List String} {target : String → List Row}
    (htarget : ∀ t ∈ names, c.Transformed t (target t)) {fuel : Nat}
    (hfuel : ∀ t ∈ names, copyFuel (c.rows t).length c.settings ≤ fuel) (e : X)
    (st : Tables × Finset String) (t : String) (row : Row) :
    ((names.foldl (c.nameStep fuel e) st).1 t).count row =
      (st.1 t).count row + names.count t * (target t).count row := by
  induction names generalizing st with
  | nil => simp
  | cons u names ih =>
    have hrest := ih (fun v hv => htarget v (List.mem_cons_of_mem u hv))
      (fun v hv => hfuel v (List.mem_cons_of_mem u hv)) (c.nameStep fuel e st u)
    have hstep := h.nameStep hbatch hdata (htarget u List.mem_cons_self)
      (hfuel u List.mem_cons_self) e st
    rw [List.foldl_cons, hrest, hstep, List.count_cons]
    by_cases hut : u = t
    · subst hut
      have hcount : (List.count u names + 1) * (target u).count row =
          List.count u names * (target u).count row + (target u).count row := Nat.succ_mul _ _
      simp only [Function.update_self, List.count_append, BEq.rfl, if_true]
      omega
    · simp [hut, Ne.symm hut]

/-- The plan counts the rows of every entry of the list. -/
theorem Keyless.planOf_totalRows {names : List String} {target : String → List Row}
    (htarget : ∀ t ∈ names, c.Transformed t (target t)) :
    (c.planOf names).totalRows = (names.map fun t => (c.rows t).length).sum := by
  have hrows : ∀ t ∈ names, MigrationPlanner.plannedRows c.toCatalogues t = (c.rows t).length := by
    intro t ht
    rcases (htarget t ht).cases with ⟨_, src, -, -, -, hsrc, hcount, -⟩ | ⟨-, hcount, hnone, -⟩
    · exact hcount.trans (h.counted t src hsrc)
    · rw [hcount, hnone]
      rfl
  have htotal := MigrationPlanner.foldl_planStep_totalRows c.toCatalogues names .empty
  rw [List.map_congr_left hrows] at htotal
  exact htotal.trans (Nat.zero_add _)

end keyless

end ForeignKeyRun

/-- A name in the normalised list occurs there as often as names that strip to it were requested. -/
theorem count_tablesNotEmpty {requested tables : List String}
    (h : tablesNotEmpty requested = .ok tables) {t : String} (ht : t ∈ tables) :
    tables.count t = requested.countP fun name => PyText.strip name = t := by
  rw [tablesNotEmpty] at h
  split at h
  · cases h
  · cases h
    obtain ⟨name, hname, hstrip⟩ := List.mem_map.mp ht
    have hblank : t ≠ "" := by
      have hkept := (List.mem_filter.mp hname).2
      rw [← hstrip]
      simpa using hkept
    rw [List.count_eq_countP, List.countP_map, List.countP_filter]
    apply List.countP_congr
    intro other _
    constructor
    · intro hboth
      simpa using (Bool.and_eq_true_iff.mp hboth).1
    · intro hsame
      have heq : PyText.strip other = t := by simpa using hsame
      simp [heq, hblank]

namespace ForeignKeyRun

/-- Each entry of the normalised list is copied, repetitions included, and counted in the plan. -/
theorem rows_per_entry (c : ForeignKeyRun X) (h : c.Keyless) (hbatch : 0 < c.settings.batchSize)
    (hdata : c.settings.includeData = true) (req : MigrationCreateRequest)
    {target : String → List Row} (htarget : ∀ t ∈ req.tables, c.Transformed t (target t))
    {fuel : Nat} (hfuel : ∀ t ∈ req.tables, copyFuel (c.rows t).length c.settings ≤ fuel)
    (w : World Tables X) (hempty : ∀ t, w.data t = []) : ∃ plan results w',
    (c.planner req.tables).buildPlan w = (.returned plan, w) ∧
    c.planAndRun fuel req.tables w = (.returned results, w') ∧
    plan.totalRows = (req.tables.map fun t => (c.rows t).length).sum ∧
    ∀ t ∈ req.tables, ∀ row, (w'.data t).count row =
      (req.requested.countP fun name => PyText.strip name = t) * (target t).count row := by
  have hnames : ∀ t ∈ req.tables, ∀ tp ∈ MigrationPlanner.planned c.toCatalogues t,
      c.Copies fuel tp ∧ c.GoesOn fuel w.env tp := by
    intro t ht tp htp
    rcases (htarget t ht).cases with ⟨tq, -, hplanned, hname, -, -, -, htransform⟩ |
      ⟨hskipped, -, -, -⟩
    · rw [hplanned] at htp
      cases List.mem_singleton.mp htp
      subst hname
      refine ⟨⟨fun _ _ row hrow => ?_, hfuel _ ht⟩, Or.inr fun _ d => ?_⟩
      · exact MigrationExecutor.transformRow_of_transform htransform hrow
      · rw [h.copied hbatch hdata htransform (hfuel _ ht)]
    · have hstatus := hskipped tp htp
      have hname := MigrationPlanner.planned_tableName c.toCatalogues htp
      subst hname
      exact ⟨⟨fun hne => absurd hstatus hne, hfuel _ ht⟩, Or.inr fun hne => absurd hstatus hne⟩
  obtain ⟨results, w', hrun, hsteps⟩ := c.planAndRun_steps hbatch hnames w
  refine ⟨_, results, w', c.buildPlan_planOf req.tables w, hrun, h.planOf_totalRows htarget, ?_⟩
  intro t ht row
  have hcount := h.count_foldl hbatch hdata htarget hfuel w.env (w.data, ∅) t row
  rw [← hsteps] at hcount
  rw [← count_tablesNotEmpty req.accepted ht]
  simpa [hempty] using hcount

end ForeignKeyRun

/-- One user, and a database that has the table `users` alone. -/
private def oneUser : ForeignKeyRun Unit where
  fks := []
  conflicts _ _ _ := false
  onViolation := .raises
  sourceSchema t :=
    if t = "users" then
      .ok { name := t, columns := [{ name := "id", dataType := "INTEGER" }], rowCount := 1 }
    else .error ⟨.other, "no such table"⟩
  present _ := false
  destinationSchema _ := .error ⟨.other, "no such table"⟩
  rows t := if t = "users" then [Dict.ofList [("id", .int 1)]] else []
  settings := {}
  untruncated := rfl
  ready := Or.inl rfl

private theorem oneUser_keyless : oneUser.Keyless where
  fks := rfl
  conflicts _ _ _ := rfl
  counted t schema hschema := by
    by_cases ht : t = "users"
    · subst ht
      cases hschema
      rfl
    · simp [oneUser, ht] at hschema
  uniform t := by
    refine ⟨["id"], fun row hrow => ?_⟩
    by_cases ht : t = "users"
    · subst ht
      cases List.mem_singleton.mp hrow
      rfl
    · simp [oneUser, ht] at hrow

/-- The same name twice, once with blanks around it, and a blank one. -/
private def twiceRequest : MigrationCreateRequest where
  source := ⟨⟨.SQLITE, .CREDENTIALS, none, none, none, none, none, none, some "a.db"⟩, rfl, rfl⟩
  destination := ⟨⟨.SQLITE, .CREDENTIALS, none, none, none, none, none, none, some "b.db"⟩, rfl, rfl⟩
  requested := ["users", " ", " users "]
  tables := ["users", "users"]
  accepted := by decide

theorem rows_per_entry_twice : ∃ plan results w',
    (oneUser.planner twiceRequest.tables).buildPlan ⟨fun _ => [], ()⟩ =
      (.returned plan, ⟨fun _ => [], ()⟩) ∧
    oneUser.planAndRun 8 twiceRequest.tables ⟨fun _ => [], ()⟩ = (.returned results, w') ∧
    plan.totalRows = (twiceRequest.tables.map fun t => (oneUser.rows t).length).sum ∧
    ∀ t ∈ twiceRequest.tables, ∀ row, (w'.data t).count row =
      (twiceRequest.requested.countP fun name => PyText.strip name = t) *
        (oneUser.rows t).count row := by
  refine ForeignKeyRun.rows_per_entry oneUser oneUser_keyless (by decide) rfl twiceRequest ?_ ?_ _
    (fun _ => rfl)
  · intro t ht
    have hname : t = "users" := by simpa [twiceRequest] using ht
    subst hname
    exact Or.inl ⟨_, rfl, by decide, rfl⟩
  · decide

/-- Two rows for the one user of the source, and two rows in the total. -/
theorem repeated_name_copied_twice :
    tablesNotEmpty ["users", " users "] = .ok ["users", "users"] ∧
    oneUser.rows "users" = [Dict.ofList [("id", .int 1)]] ∧
    (oneUser.planOf ["users", "users"]).totalRows = 2 ∧
    (oneUser.planAndRun 8 ["users", "users"] ⟨fun _ => [], ()⟩).2.data "users" =
      [Dict.ofList [("id", .int 1)], Dict.ofList [("id", .int 1)]] := by
  decide +kernel

end DataBridge
