import DataBridge.Migration.Cascade

namespace DataBridge

variable {S X α : Type}

/-- A destination server with foreign keys between its tables; `conflicts t` says which rows of
table `t` its unique keys tell apart, and `depth` how far actions of SQLite follow each other. -/
structure FkServer where
  dialect : Dialect
  fks : List ForeignKey
  conflicts : String → Row → Row → Bool
  depth : Nat := 1000

namespace FkServer

variable (k : FkServer)

def constraints : Constraints where
  fks := k.fks
  conflicts := k.conflicts
  onViolation := match k.dialect with
    | .postgres | .sqlite => .raises
    | .mysql => .skips

/-- A statement that raises adds nothing on PostgreSQL; on SQLite the rows before stay. -/
def executemany (q : Insert) : Call Exc (FkData S) Unit := fun d =>
  match d.tables.get? q.table with
  | none => (.raised ⟨.other, s!"no such table: {q.table}"⟩, d)
  | some content =>
    match k.constraints.addUntilRaise d.content q.table content q.rows with
    | (rows, none) => (.returned (), { d with tables := d.tables.set q.table rows })
    | (rows, some exc) =>
      (.raised exc,
        if k.dialect = .postgres then d else { d with tables := d.tables.set q.table rows })

def engine : Engine (FkData S) where
  fetch _ := Call.raise ⟨.other, "not served"⟩
  truncate := truncateTables k.dialect k.fks k.depth
  executemany := k.executemany

def provider : BaseDatabaseProvider (FkData S) :=
  { Engine.provider k.engine with
    tableExists := fun t => Call.read fun d => t ∈ d.tables.keys
    createTable := fun schema => Call.modify fun d =>
      if schema.name ∈ d.tables.keys then d
      else { d with tables := d.tables.set schema.name [] } }

theorem provider_createTable (schema : TableSchema) (d : FkData S) :
    ∃ d', k.provider.createTable schema d = (.returned (), d') ∧ d'.content = d.content := by
  refine ⟨_, rfl, ?_⟩
  dsimp only
  split
  · rfl
  · rename_i hnew
    funext t
    have habsent : d.tables.get? schema.name = none := by
      rw [Dict.get?_eq_none]
      exact hnew
    rw [FkData.content_set]
    split
    · rename_i ht
      subst ht
      simp [FkData.content, habsent]
    · rfl

/-- An insert touches the table it names and no other. -/
theorem wp_executemany (q : Insert) (t : String) (d : FkData S) (htu : t ≠ q.table) :
    Call.wp (k.executemany q)
      ⟨fun _ d' => d'.content t = d.content t, fun _ d' => d'.content t = d.content t,
        fun _ => False⟩ d := by
  have hset : ∀ rows, FkData.content { d with tables := d.tables.set q.table rows } t =
      d.content t := by
    intro rows
    rw [FkData.content_set]
    exact if_neg htu
  rw [Call.wp, executemany]
  cases d.tables.get? q.table with
  | none => rfl
  | some content =>
    dsimp only
    obtain ⟨rows, raised⟩ := k.constraints.addUntilRaise d.content q.table content q.rows
    cases raised with
    | none => exact hset rows
    | some exc =>
      dsimp only
      split
      · rfl
      · exact hset rows

theorem wp_insertBatch (u t : String) (rows : List Row) (d : FkData S) (htu : t ≠ u) :
    Call.wp (k.provider.insertBatch u rows none)
      ⟨fun _ d' => d'.content t = d.content t, fun _ d' => d'.content t = d.content t,
        fun _ => False⟩ d := by
  cases rows with
  | nil => exact rfl
  | cons first rest =>
    change Call.wp (do
      k.executemany (Insert.ofRows u none first (first :: rest))
      pure (first :: rest).length) _ d
    rw [Call.wp_bind]
    exact k.wp_executemany _ t d htu

end FkServer

/-- One run of the executor over tables with foreign keys. -/
structure CascadeRun (S X : Type) extends FkServer where
  source : BaseDatabaseProvider S
  settings : MigrationSettings
  plan : MigrationPlan
  sourceFaults : Faults X := {}
  destinationFaults : Faults X := {}
  onProgress : Option (String → Nat → Nat → Option String → Fault X) := none
  onLog : Option (String → String → Option String → Fault X) := none
  sleep : Nat → Fault X := fun _ e => (none, e)

def CascadeRun.site (c : CascadeRun S X) : Site (FkData S) X where
  source := c.source.within FkData.source (fun s d => { d with source := s })
  destination := c.toFkServer.provider
  settings := c.settings
  plan := c.plan
  sourceFaults := c.sourceFaults
  destinationFaults := c.destinationFaults
  onProgress := c.onProgress
  onLog := c.onLog
  sleep := c.sleep

variable (c : CascadeRun S X)

private theorem source_frame {d : FkData S} {t : String} {rows : List Row} (call : Call Exc S α)
    (h : d.content t = rows) :
    Call.wp (Call.zoom FkData.source (fun s d => { d with source := s }) call)
      ⟨fun _ d' => d'.content t = rows, fun _ d' => d'.content t = rows, fun _ => True⟩ d := by
  rw [Call.wp_zoom]
  exact Call.wp_of_forall (fun _ _ => h) (fun _ _ => h) (fun _ => trivial)

/-- Migrating one table leaves every other table as it is, unless truncating cascades to it. -/
theorem dwp_migrateTable_frame (fuel : Nat) (tp : MigrationTablePlan) (t : String) (d : FkData S)
    (n : Nat) (htu : t ≠ tp.tableName)
    (hsafe : ¬ Cascades c.dialect c.fks c.depth d.content tp.tableName t) :
    dwp (c.site.executor.migrateTable fuel tp)
      ⟨fun _ d' _ => d'.content t = d.content t, fun d' _ => d'.content t = d.content t, True⟩
      d n := by
  have hsame : ∀ d' : FkData S, d'.content = d.content → d'.content t = d.content t :=
    fun d' h => congrFun h t
  refine dwp_migrateTable c.site fuel tp (fun d' => d'.content = d.content)
    (fun d' => d'.content = d.content) (fun d' => d'.content t = d.content t) (fun _ => rfl)
    (fun _ => rfl) ?_ (fun _ h _ => h) (fun d' h => ⟨hsame d' h, fun _ => hsame d' h⟩)
    (fun d' h _ => hsame d' h) ?_ (fun _ h _ => h) (fun _ h _ => h) ?_
  · intro _
    obtain ⟨d', hrun, hd'⟩ := c.toFkServer.provider_createTable tp.sourceSchema d
    exact ⟨fun _ => rfl, Call.wp_of_eq_returned hrun hd'⟩
  · intro d' hd' _
    refine ⟨fun _ => hsame d' hd', ?_⟩
    have hframe := truncateTables_frame c.dialect c.fks c.depth tp.tableName t d' htu (by rwa [hd'])
    rw [hsame d' hd'] at hframe
    change Call.wp (truncateTables c.dialect c.fks c.depth tp.tableName) _ d'
    refine Call.wp_mono (Call.wp_self _ d') ?_ ?_ ?_
    · intro _ d'' hrun
      rw [hrun] at hframe
      exact hframe
    · intro _ d'' hrun
      rw [hrun] at hframe
      exact hframe
    · intro d'' hrun
      exact truncateTables_ends c.dialect c.fks c.depth tp.tableName d' (congrArg Prod.fst hrun)
  · intro d₀ h₀ _
    refine dwp_loop_weak (fun _ d' _ => d'.content t = d.content t) ?_ trivial h₀
    intro v d' m hd'
    refine dwp_copyPass c.site tp v (fun _ d'' => d''.content t = d.content t)
      (fun d'' => d''.content t = d.content t) (source_frame _ hd') (fun _ => hd')
      (fun _ h => ⟨fun _ => h, fun _ => h, fun _ => h⟩) (fun _ h => ⟨h, fun _ => h⟩) ?_
    intro batch d'' _ hd''
    refine ⟨fun _ _ => hd'', ?_⟩
    intro rows _
    refine dwp_insertWithRetry c.site tp.tableName rows (fun d'' => d''.content t = d.content t)
      (fun d'' => d''.content t = d.content t) (fun d'' => d''.content t = d.content t) ?_ ?_
      (fun _ h => h) (fun _ h => ⟨h, fun _ => h⟩) (fun _ h => ⟨h, fun _ => h⟩) hd''
    · intro d₁ h₁
      rw [← h₁]
      exact c.toFkServer.wp_insertBatch tp.tableName t rows d₁ htu
    · intro d₁ k _ h₁
      have hframe := c.toFkServer.wp_insertBatch tp.tableName t (rows.take k) d₁ htu
      rw [← h₁]
      change FkData.content (c.toFkServer.provider.insertBatch tp.tableName
        (rows.take k) none d₁).2 t = _
      cases hrun : c.toFkServer.provider.insertBatch tp.tableName (rows.take k) none d₁ with
      | mk outcome d₂ =>
        cases outcome with
        | returned _ => exact Call.wp_of_returned hframe hrun
        | raised _ => exact Call.wp_of_raised hframe hrun
        | exhausted => exact (Call.wp_of_exhausted hframe hrun).elim

/-- `rows` is what the last migration of table `t` among the tables `ran` left in it. -/
def OwnContent (fuel : Nat) (s₀ : SiteState (FkData S) X) (ran : List MigrationTablePlan)
    (t : String) (rows : List Row) : Prop :=
  ∃ pre tp mid results s ok s', ran = pre ++ tp :: mid ∧ tp.tableName = t ∧
    (∀ u ∈ mid, u.status ≠ .skipped → u.tableName ≠ t) ∧
    Call.Passed (c.site.executor.runTable fuel) pre {} s₀ results s ∧
    c.site.executor.migrateTable fuel tp s = (.returned ok, s') ∧
    s'.world.data.content t = rows

variable {c} in
private theorem OwnContent.later {fuel : Nat} {s₀ : SiteState (FkData S) X}
    {ran : List MigrationTablePlan} {t : String} {rows : List Row}
    (h : OwnContent c fuel s₀ ran t rows) (u : MigrationTablePlan)
    (hu : u.status ≠ .skipped → u.tableName ≠ t) : OwnContent c fuel s₀ (ran ++ [u]) t rows := by
  obtain ⟨pre, tp, mid, results, s, ok, s', hran, hname, hmid, hrest⟩ := h
  refine ⟨pre, tp, mid ++ [u], results, s, ok, s', by simp [hran], hname, ?_, hrest⟩
  intro v hv
  rcases List.mem_append.mp hv with hold | hnew
  · exact hmid v hold
  · have he : v = u := by simpa using hnew
    exact he ▸ hu

/-- Before each table that is migrated, no table completed earlier has rows that truncating it
would take or rewrite. -/
def NoCascade (fuel : Nat) (s₀ : SiteState (FkData S) X) : Prop :=
  ∀ pre tp post results s, c.plan.tables = pre ++ tp :: post → tp.status ≠ .skipped →
    Call.Passed (c.site.executor.runTable fuel) pre {} s₀ results s →
    ∀ t ∈ results.completedTables, t ≠ tp.tableName →
      ¬ Cascades c.dialect c.fks c.depth s.world.data.content tp.tableName t

/-- The completed tables hold what their own migrations left. -/
private def Kept (fuel : Nat) (s₀ : SiteState (FkData S) X) (ran : List MigrationTablePlan)
    (results : ExecResult) (s : SiteState (FkData S) X) : Prop :=
  ∀ t ∈ results.completedTables, OwnContent c fuel s₀ ran t (s.world.data.content t)

private theorem kept_skipped (fuel : Nat) {s₀ s : SiteState (FkData S) X}
    {pre : List MigrationTablePlan} {results : ExecResult} {tp : MigrationTablePlan}
    (hskip : tp.status = .skipped) (h : Kept c fuel s₀ pre results s) (message : String) :
    Call.wp (c.site.executor.log "WARNING" message)
      ⟨fun _ s' => Kept c fuel s₀ (pre ++ [tp]) results s', fun _ _ => True, fun _ => True⟩ s := by
  have hlog : dwp (c.site.executor.log "WARNING" message)
      ⟨fun _ d' _ => d' = s.world.data, fun _ _ => True, True⟩ s.world.data s.totalRowsProcessed :=
    dwp_log c.site _ _ _ rfl (fun _ => trivial)
  refine Call.wp_mono (hlog s.world.env) ?_ (fun _ _ _ => trivial) (fun _ _ => trivial)
  intro _ s' hdata t ht
  have hsame : s'.world.data = s.world.data := hdata
  rw [hsame]
  exact (h t ht).later tp (fun hne => absurd hskip hne)

/-- One table keeps the completed ones, and its own content is what it leaves. -/
private theorem kept_migrated (fuel : Nat) {s₀ s : SiteState (FkData S) X}
    {pre : List MigrationTablePlan} {results : ExecResult} {tp : MigrationTablePlan}
    (hpassed : Call.Passed (c.site.executor.runTable fuel) pre {} s₀ results s)
    (h : Kept c fuel s₀ pre results s)
    (hsafe : ∀ t ∈ results.completedTables, t ≠ tp.tableName →
      ¬ Cascades c.dialect c.fks c.depth s.world.data.content tp.tableName t) :
    Call.wp (c.site.executor.migrateTable fuel tp)
      ⟨fun _ s' => ∀ t, t ∈ results.completedTables ∨ t = tp.tableName →
        OwnContent c fuel s₀ (pre ++ [tp]) t (s'.world.data.content t),
        fun _ _ => True, fun _ => True⟩ s := by
  refine Call.wp_mono (Call.wp_self _ s) ?_ (fun _ _ _ => trivial) (fun _ _ => trivial)
  intro ok s' hrun t ht
  by_cases hown : t = tp.tableName
  · subst hown
    exact ⟨pre, tp, [], results, s, ok, s', rfl, rfl, by simp, hpassed, hrun, rfl⟩
  · have hdone : t ∈ results.completedTables := ht.resolve_right hown
    have hframe := dwp_migrateTable_frame c fuel tp t s.world.data s.totalRowsProcessed hown
      (hsafe t hdone hown) s.world.env
    have hcontent : s'.world.data.content t = s.world.data.content t :=
      Call.wp_of_returned hframe hrun
    rw [hcontent]
    exact (h t hdone).later tp (fun _ he => hown he.symm)

private theorem afterTable_completed {x : MigrationExecutor (World (FkData S) X)}
    {results r' : ExecResult} {tp : MigrationTablePlan} {ok : Bool}
    (h : x.afterTable results tp ok = .again r' ∨ x.afterTable results tp ok = .done r')
    {t : String} (ht : t ∈ r'.completedTables) :
    t ∈ results.completedTables ∨ t = tp.tableName := by
  rw [MigrationExecutor.afterTable] at h
  cases ok with
  | true =>
    rw [if_pos rfl] at h
    rcases h with h | h
    · obtain ⟨⟩ := h
      simpa using ht
    · obtain ⟨⟩ := h
  | false =>
    rw [if_neg Bool.false_ne_true] at h
    by_cases hc : x.continueOnError = true
    · rw [if_pos hc] at h
      rcases h with h | h
      · obtain ⟨⟩ := h
        exact Or.inl ht
      · obtain ⟨⟩ := h
    · rw [if_neg hc] at h
      rcases h with h | h
      · obtain ⟨⟩ := h
      · obtain ⟨⟩ := h
        exact Or.inl ht

/-- The run got to the tables `ran`, and the completed ones hold what their migrations left. -/
private def RanKept (fuel : Nat) (s₀ : SiteState (FkData S) X) (results : ExecResult)
    (s : SiteState (FkData S) X) : Prop :=
  ∃ ran, ran <+: c.plan.tables ∧
    Call.forEach (c.site.executor.runTable fuel) ran {} s₀ = (.returned results, s) ∧
    Kept c fuel s₀ ran results s

/-- One table of the plan, whether the loop goes on after it or ends with it. -/
private theorem kept_runTable (fuel : Nat) {s₀ s : SiteState (FkData S) X}
    {pre post : List MigrationTablePlan} {results : ExecResult} {tp : MigrationTablePlan}
    (hsafe : NoCascade c fuel s₀) (hall : c.plan.tables = pre ++ tp :: post)
    (hpassed : Call.Passed (c.site.executor.runTable fuel) pre {} s₀ results s)
    (h : Kept c fuel s₀ pre results s) :
    Call.wp (c.site.executor.runTable fuel results tp)
      ⟨fun p s' => match p with
        | .again r' => Kept c fuel s₀ (pre ++ [tp]) r' s'
        | .done r' => RanKept c fuel s₀ r' s', fun _ _ => True, fun _ => True⟩ s := by
  apply MigrationExecutor.wp_runTable
  · exact fun hskip => kept_skipped c fuel hskip h _
  · intro hskip
    have hown := kept_migrated c fuel hpassed h (hsafe pre tp post results s hall hskip hpassed)
    refine Call.wp_mono (Call.wp_and (Call.wp_self _ s) hown) ?_ (fun _ _ _ => trivial)
      (fun _ _ => trivial)
    intro ok s' hok
    obtain ⟨hmigrate, hcontent⟩ := hok
    have hbody : c.site.executor.runTable fuel results tp s =
        (.returned (c.site.executor.afterTable results tp ok), s') :=
      c.site.executor.runTable_returned hskip hmigrate
    have hsub : ∀ r', c.site.executor.afterTable results tp ok = .again r' ∨
        c.site.executor.afterTable results tp ok = .done r' → Kept c fuel s₀ (pre ++ [tp]) r' s' :=
      fun r' hr' t ht => hcontent t (afterTable_completed hr' ht)
    dsimp only
    cases hafter : c.site.executor.afterTable results tp ok with
    | again r' => exact hsub r' (Or.inl hafter)
    | done r' =>
      refine ⟨pre ++ [tp], ⟨post, by simp [hall]⟩, ?_, hsub r' (Or.inr hafter)⟩
      rw [hpassed.forEach_append]
      refine (Call.bind_of_returned hbody).trans ?_
      rw [hafter]
      rfl

/-- Two PostgreSQL tables of one row each, the second referenced by the first. -/
def referencingRun (order : List String) : CascadeRun Unit Unit where
  source := Engine.provider { Engine.idle with
    fetch := fun q => pure (selectRows (if q.table = "child"
      then [Dict.ofList [("id", .int 7), ("parent_id", .int 1)]]
      else [Dict.ofList [("id", .int 1)]]) q) }
  dialect := .postgres
  fks := [{ child := "child", childCols := ["parent_id"], parent := "parent", parentCols := ["id"] }]
  conflicts := fun _ => fun row old => row.get "id" = old.get "id"
  settings := { truncateDestination := true }
  plan := {
    tables := order.map fun t => { tableName := t, sourceSchema := { name := t, columns := [] } }
    totalRows := 2 }

/-- The destination has the parent row already. -/
def parentFilled : SiteState (FkData Unit) Unit where
  world := {
    data := ⟨(), Dict.ofList [("parent", [Dict.ofList [("id", .int 1)]]), ("child", [])]⟩
    env := () }

def referencedFirst : CascadeRun Unit Unit := referencingRun ["parent", "child"]

end DataBridge
