import DataBridge.Migration.Planner
import DataBridge.Migration.StaticSource

namespace DataBridge

/-- A provider that only knows the schema of one table, or that there is none. -/
def catalogue (schema : Option TableSchema) : BaseDatabaseProvider Unit :=
  { Engine.provider Engine.idle with
    getTableSchema := fun _ => match schema with
      | some s => pure s
      | none => Call.raise ⟨.other, "no such table"⟩
    tableExists := fun _ => pure schema.isSome }

/-- The planner for one table that both sides have. -/
def pairPlanner (tableName : String) (src dest : TableSchema) : MigrationPlanner Unit where
  source := catalogue src
  destination := catalogue dest
  tableNames := [tableName]

/-- A destination that carries out whatever it is asked; only the batches it is handed are noted. -/
def collectingDestination : BaseDatabaseProvider (List (List Row)) :=
  { Engine.provider Engine.idle with
    createTable := fun _ => pure ()
    insertBatch := fun _ rows _ => pure rows.length
    truncateTable := fun _ => pure () }

/-- One table's transfer with any settings, faults and callbacks. -/
structure TransferRun (X : Type) where
  settings : MigrationSettings := {}
  fetchFault : Fault X := fun e => (none, e)
  destinationFaults : Faults X := {}
  onProgress : Option (String → Nat → Nat → Option String → Fault X) := none
  onLog : Option (String → String → Option String → Fault X) := none
  sleep : Nat → Fault X := fun _ e => (none, e)

variable {X : Type}

def TransferRun.site (c : TransferRun X) (rows : List Row) : Site (List (List Row)) X where
  source := staticSource rows
  destination := collectingDestination
  settings := c.settings
  sourceFaults := { fetchBatch := c.fetchFault }
  destinationFaults := c.destinationFaults
  notes := { given := fun batch handed => handed ++ [batch] }
  onProgress := c.onProgress
  onLog := c.onLog
  sleep := c.sleep

/-- Every key of the row is an included column of the mappings, and a column of the destination. -/
def OnlyIncluded (mappings : List ColumnMapping) (dest : TableSchema) (row : Row) : Prop :=
  ∀ col ∈ row.keys, (∃ m ∈ mappings, m.included = true ∧ m.destCol = col) ∧
    col ∈ dest.columns.map (·.name)

/-- Whatever run follows the plan for the two schemas, only included columns are transferred. -/
def TransfersOnlyIncluded (tableName : String) (src dest : TableSchema) (rows : List Row) : Prop :=
  ∀ plan, (pairPlanner tableName src dest).buildPlan () = (.returned plan, ()) →
    ∀ tp ∈ plan.tables, ∀ (X : Type) (c : TransferRun X) (fuel : Nat) (e : X) o s,
      (c.site rows).executor.migrateTable fuel tp ⟨⟨[], e⟩, 0⟩ = (o, s) → o ≠ .exhausted →
        ∀ batch ∈ s.world.data, ∀ row ∈ batch, OnlyIncluded tp.columnMappings dest row

/-- The entry of an accepted pair: pending, with the mappings of the two schemas. -/
def pairTable (tableName : String) (src dest : TableSchema) : MigrationTablePlan where
  tableName := tableName
  sourceSchema := src
  destinationSchema := dest
  columnMappings := buildColumnMappings src dest
  rowCount := src.rowCount

theorem pairPlanner_buildPlan (tableName : String) {src dest : TableSchema}
    {warnings : List String} (h : validateSchemaCompatibility src (some dest) = .ok warnings) :
    (pairPlanner tableName src dest).buildPlan () = (.returned
      { tables := [pairTable tableName src dest]
        totalRows := 0 + src.rowCount
        warnings := warnings }, ()) := by
  have hplan : (pairPlanner tableName src dest).buildPlan () =
      (.returned (MigrationPlanner.planTable tableName src (some dest) .empty), ()) := rfl
  rw [hplan, MigrationPlanner.planTable, h]
  rfl

/-- Where a column is shared, the rows of a transformed batch have shared columns only. -/
theorem transform_onlyIncluded {src dest : TableSchema} (hsrc : (src.columns.map (·.name)).Nodup)
    {col : ColumnSchema} (hcol : col ∈ src.columns) (hshared : col.name ∈ dest.columns.map (·.name))
    {batch out : List Row}
    (h : MigrationExecutor.transform (buildColumnMappings src (some dest)) batch = .ok out) :
    ∀ row ∈ out, OnlyIncluded (buildColumnMappings src (some dest)) dest row := by
  have hincluded : ∃ m ∈ buildColumnMappings src (some dest), m.included = true := by
    have hactive := mem_activeMappings_buildColumnMappings.mpr ⟨col, hcol, hshared, rfl⟩
    exact ⟨_, List.mem_filter.mp hactive⟩
  have hnodup : ((activeMappings (buildColumnMappings src (some dest))).map (·.destCol)).Nodup := by
    have hall : (buildColumnMappings src (some dest)).map (·.destCol) = src.columns.map (·.name) := by
      rw [buildColumnMappings, List.map_map]
      rfl
    exact (hall ▸ hsrc).sublist (List.filter_sublist.map _)
  rw [MigrationExecutor.transform_of_included hincluded] at h
  intro row hrow c hc
  obtain ⟨source, -, hrun⟩ := ExceptList.mapM_source h hrow
  rw [transformRow_keys hnodup hrun] at hc
  obtain ⟨m, hm, hmc⟩ := List.mem_map.mp hc
  have hm' := List.mem_filter.mp hm
  obtain ⟨col', -, hname, he⟩ := mem_activeMappings_buildColumnMappings.mp hm
  have hdest : col'.name = c := by rw [← hmc, he]; rfl
  exact ⟨⟨m, hm'.1, hm'.2, hmc⟩, hdest ▸ hname⟩

section handed

variable (c : TransferRun X) (rows : List Row) (tp : MigrationTablePlan)

/-- Every batch handed over is a transformed page of the table. -/
private theorem dwp_handed {Good : Row → Prop}
    (hgood : ∀ offset out, MigrationExecutor.transform tp.columnMappings
        (selectRows rows ⟨MigrationExecutor.selectedColumns tp.columnMappings, tp.tableName,
          c.settings.batchSize, offset⟩) = .ok out → ∀ row ∈ out, Good row)
    (fuel : Nat) (n : Nat) :
    dwp ((c.site rows).executor.migrateTable fuel tp)
      ⟨fun _ d _ => ∀ batch ∈ d, ∀ row ∈ batch, Good row,
        fun d _ => ∀ batch ∈ d, ∀ row ∈ batch, Good row, True⟩ [] n := by
  let I : List (List Row) → Prop := fun d => ∀ batch ∈ d, ∀ row ∈ batch, Good row
  have hempty : I [] := by simp [I]
  refine dwp_migrateTable (c.site rows) fuel tp I I I (fun _ => hempty) (fun _ => hempty)
    (fun _ => ⟨fun _ => hempty, hempty⟩) (fun _ h _ => h) (fun _ h => ⟨h, fun _ => h⟩)
    (fun _ h _ => h) (fun _ h _ => ⟨fun _ => h, h⟩) (fun _ h _ => h) (fun _ h _ => h) ?_
  intro d₀ h₀ _
  refine dwp_loop_weak (fun _ d _ => I d) ?_ trivial h₀
  intro v d m hd
  refine dwp_copyPass (c.site rows) tp v
    (fun batch d' => batch = selectRows rows ⟨MigrationExecutor.selectedColumns tp.columnMappings,
      tp.tableName, c.settings.batchSize, v.offset⟩ ∧ I d') I ⟨rfl, hd⟩ (fun _ => hd)
    (fun _ h => ⟨fun _ => h, fun _ => h, fun _ => h⟩) (fun _ h => ⟨h.2, fun _ => h.2⟩) ?_
  intro batch d' _ hb
  obtain ⟨hpage, hd'⟩ := hb
  refine ⟨fun _ _ => hd', ?_⟩
  intro out hout
  rw [hpage] at hout
  have hout' := hgood v.offset out hout
  have hadd : ∀ d, I d → I (d ++ [out]) := by
    intro d₁ h₁ b hb
    rcases List.mem_append.mp hb with hold | hnew
    · exact h₁ b hold
    · have he : b = out := by simpa using hnew
      exact he ▸ hout'
  refine dwp_insertWithRetry (c.site rows) tp.tableName out I I I (fun d₁ h₁ => hadd d₁ h₁)
    (fun d₁ _ _ h₁ => hadd d₁ h₁) (fun _ h => h) (fun _ h => ⟨h, fun _ => h⟩)
    (fun _ h => ⟨h, fun _ => h⟩) hd'

/-- Without an included column, and with nothing going wrong, rows of the table are handed over as
they are. -/
private theorem dwp_unmapped (hnone : activeMappings tp.columnMappings = []) (hrows : rows ≠ []) :
    dwp ((({} : TransferRun Unit).site rows).executor.migrateTable (copyFuel rows.length {}) tp)
      ⟨fun _ d _ => ∃ batch ∈ d, ∃ row ∈ batch, row ∈ rows, fun _ _ => False, False⟩ [] 0 := by
  have hquiet : ¬ (({} : TransferRun Unit).site rows).CallbacksRaise := by
    intro hcases
    rcases hcases with ⟨f, hf, -⟩ | ⟨f, hf, -⟩ | ⟨seconds, e, exc, h⟩
    · cases hf
    · cases hf
    · cases h
  have htarget : MigrationExecutor.transform tp.columnMappings rows = .ok rows := by
    rw [MigrationExecutor.transform, if_pos hnone]
  let J : Nat → List (List Row) → Prop := fun o d =>
    o = 0 ∨ ∃ batch ∈ d, ∃ row ∈ batch, row ∈ rows
  have hsteps : CopySteps (({} : TransferRun Unit).site rows) tp.tableName rows J
      (fun _ _ => False) := by
    refine ⟨?_, ?_, fun _ _ h => h.elim⟩
    · intro o d ho _
      have hne : window rows o 1000 ≠ [] := by
        intro he
        have hlen := window_length rows o 1000
        rw [he, List.length_nil] at hlen
        omega
      obtain ⟨row, hrow⟩ := List.exists_mem_of_ne_nil _ hne
      have hmem : row ∈ rows := List.mem_of_mem_drop (List.mem_of_mem_take hrow)
      exact Or.inr ⟨window rows o 1000, List.mem_append_right d List.mem_cons_self, row, hrow, hmem⟩
    · intro o d k _ hparts _
      obtain ⟨e, exc, hkeep⟩ := hparts
      cases hkeep
  have hstart : J 0 [] := Or.inl rfl
  have hloop := dwp_copyLoop (({} : TransferRun Unit).site rows) tp (staticSource_serves _ _) htarget
    (Nat.succ_pos 999) hsteps (Nat.le_refl _) 0 hstart
  refine dwp_migrateTable _ _ tp (· = []) (fun _ => False) (· = []) (fun h => (hquiet h).elim)
    (fun _ => rfl) (fun _ => ⟨?_, rfl⟩) (fun _ _ h => (hquiet h).elim) (fun _ h => h.elim)
    (fun _ h _ => h) (fun _ _ h => by cases h) (fun _ _ h => hquiet h) (fun _ _ h => by cases h) ?_
  · intro hfound
    obtain ⟨e, exc, h⟩ := hfound
    cases h
  · intro d hd _
    subst hd
    refine dwp_mono hloop ?_ (fun _ _ h => hquiet h.1)
    intro ok d m h
    cases ok with
    | true =>
      rcases h.1 with hzero | hrow
      · exact absurd (List.length_eq_zero_iff.mp hzero) hrows
      · exact hrow
    | false =>
      obtain ⟨o, -, -, ⟨e, exc, hf⟩ | hf, -⟩ := h
      · cases hf
      · exact hf.elim

end handed

/-- For two schemas with distinct column names that the validator accepts, and any rows of the
source: whatever run follows the plan, no excluded column is transferred, just when the schemas
share a column or the table is empty. -/
theorem transfersOnlyIncluded_iff (tableName : String) {src dest : TableSchema}
    (hsrc : (src.columns.map (·.name)).Nodup) {warnings : List String}
    (haccept : validateSchemaCompatibility src (some dest) = .ok warnings) {rows : List Row}
    (hrows : ∀ r ∈ rows, r.keys = src.columns.map (·.name)) :
    TransfersOnlyIncluded tableName src dest rows ↔
      (∃ col ∈ src.columns, col.name ∈ dest.columns.map (·.name)) ∨ rows = [] := by
  have hplan := pairPlanner_buildPlan tableName haccept
  have hcolumns : src.columns ≠ [] := by
    intro h
    rw [validateSchemaCompatibility, if_pos h] at haccept
    cases haccept
  constructor
  · intro h
    by_contra hno
    obtain ⟨hshared, hne⟩ := not_or.mp hno
    have hnone : activeMappings (buildColumnMappings src (some dest)) = [] := by
      apply List.eq_nil_iff_forall_not_mem.mpr
      intro m hm
      obtain ⟨col, hcol, hname, -⟩ := mem_activeMappings_buildColumnMappings.mp hm
      exact hshared ⟨col, hcol, hname⟩
    have hwp := dwp_unmapped rows (pairTable tableName src dest) hnone hne ()
    obtain ⟨col, hcol⟩ := List.exists_mem_of_ne_nil _ hcolumns
    have hraw : ∀ row ∈ rows, ¬ OnlyIncluded (buildColumnMappings src (some dest)) dest row := by
      intro row hrow honly
      have hkey : col.name ∈ row.keys := by
        rw [hrows row hrow]
        exact List.mem_map_of_mem hcol
      exact hshared ⟨col, hcol, (honly col.name hkey).2⟩
    cases hrun : (({} : TransferRun Unit).site rows).executor.migrateTable (copyFuel rows.length {})
        (pairTable tableName src dest) ⟨⟨[], ()⟩, 0⟩ with
    | mk o s =>
      cases o with
      | returned ok =>
        obtain ⟨batch, hbatch, row, hrow, hmem⟩ := Call.wp_of_returned hwp hrun
        have honly := h _ hplan _ List.mem_cons_self Unit {} _ () _ s hrun (by simp)
        exact hraw row hmem (honly batch hbatch row hrow)
      | raised exc => exact Call.wp_of_raised hwp hrun
      | exhausted => exact Call.wp_of_exhausted hwp hrun
  · intro h plan hplan' tp htp X c fuel e o s hrun hend
    rw [hplan] at hplan'
    cases hplan'
    have htp' := List.mem_singleton.mp htp
    subst htp'
    have hgood : ∀ offset out, MigrationExecutor.transform (buildColumnMappings src (some dest))
        (selectRows rows ⟨MigrationExecutor.selectedColumns (buildColumnMappings src (some dest)),
          tableName, c.settings.batchSize, offset⟩) = .ok out →
        ∀ row ∈ out, OnlyIncluded (buildColumnMappings src (some dest)) dest row := by
      rcases h with ⟨col, hcol, hshared⟩ | hempty
      · exact fun offset out hout => transform_onlyIncluded hsrc hcol hshared hout
      · intro offset out hout row hrow
        have hlen := MigrationExecutor.transform_length hout
        rw [hempty] at hlen
        have hnil : out = [] := List.length_eq_zero_iff.mp (by simpa [selectRows] using hlen)
        rw [hnil] at hrow
        cases hrow
    have hwp := dwp_handed c rows (pairTable tableName src dest) hgood fuel 0 e
    cases o with
    | returned ok => exact Call.wp_of_returned hwp hrun
    | raised exc => exact Call.wp_of_raised hwp hrun
    | exhausted => exact absurd rfl hend

/-- A table whose columns were all renamed in the destination, where none is required. -/
def renamedSource : TableSchema where
  name := "users"
  columns := [{ name := "email", dataType := "TEXT" }]

def renamedDestination : TableSchema where
  name := "users"
  columns := [{ name := "mail", dataType := "TEXT" }]

/-- The pair is accepted with a warning that the column will be skipped, and its rows are handed
over with it. -/
theorem renamed_column_transferred :
    (validateSchemaCompatibility renamedSource (some renamedDestination) = .ok
      [skippedWarning renamedSource { name := "email", dataType := "TEXT" },
        unmatchedWarning renamedDestination "mail"]) ∧
    ((({} : TransferRun Unit).site [Dict.ofList [("email", .str "a@b")]]).executor.migrateTable 2
      (pairTable "users" renamedSource renamedDestination) ⟨⟨[], ()⟩, 0⟩).2.world.data =
        [[Dict.ofList [("email", .str "a@b")]]] ∧
    ¬ TransfersOnlyIncluded "users" renamedSource renamedDestination
      [Dict.ofList [("email", .str "a@b")]] := by
  have haccept : validateSchemaCompatibility renamedSource (some renamedDestination) = .ok
      [skippedWarning renamedSource { name := "email", dataType := "TEXT" },
        unmatchedWarning renamedDestination "mail"] := by decide
  have hrun : (({} : TransferRun Unit).site [Dict.ofList [("email", .str "a@b")]]).executor.migrateTable 2
      (pairTable "users" renamedSource renamedDestination) ⟨⟨[], ()⟩, 0⟩ =
        (.returned true, ⟨⟨[[Dict.ofList [("email", .str "a@b")]]], ()⟩, 1⟩) := rfl
  refine ⟨haccept, by rw [hrun], ?_⟩
  intro h
  have honly := h _ (pairPlanner_buildPlan "users" haccept) _ List.mem_cons_self Unit {} 2 () _ _ hrun
    (by simp) _ List.mem_cons_self _ List.mem_cons_self
  exact absurd (honly "email" (by decide)).2 (by decide)

/-- With one shared column beside the renamed one, only the shared one is transferred. -/
theorem transfersOnlyIncluded_iff_shared :
    ∃ src dest : TableSchema, ∃ rows : List Row, rows ≠ [] ∧
      TransfersOnlyIncluded "users" src dest rows := by
  refine ⟨{ renamedSource with columns := { name := "id", dataType := "INTEGER" } ::
      renamedSource.columns },
    { renamedDestination with columns := { name := "id", dataType := "BIGINT" } ::
      renamedDestination.columns },
    [Dict.ofList [("id", .int 1), ("email", .str "a@b")]], by simp, ?_⟩
  have haccept : validateSchemaCompatibility
      { renamedSource with columns := { name := "id", dataType := "INTEGER" } ::
        renamedSource.columns }
      (some { renamedDestination with columns := { name := "id", dataType := "BIGINT" } ::
        renamedDestination.columns }) = .ok
      [skippedWarning renamedSource { name := "email", dataType := "TEXT" },
        unmatchedWarning renamedDestination "mail"] := by decide
  refine (transfersOnlyIncluded_iff "users" (by decide) haccept ?_).mpr ?_
  · decide
  · exact Or.inl ⟨{ name := "id", dataType := "INTEGER" }, List.mem_cons_self, by decide⟩

end DataBridge
