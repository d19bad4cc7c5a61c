import DataBridge.Migration.Validator
import DataBridge.Providers.SqliteSchema

namespace DataBridge

/-- The same columns in the same order, but for their defaults, and the same key. -/
structure SameLayout (s d : TableSchema) : Prop where
  names : d.columns.map (·.name) = s.columns.map (·.name)
  dataTypes : d.columns.map (·.dataType) = s.columns.map (·.dataType)
  nullable : d.columns.map (·.isNullable) = s.columns.map (·.isNullable)
  inKey : d.columns.map (·.isPrimaryKey) = s.columns.map (·.isPrimaryKey)
  primaryKeys : d.primaryKeys = s.primaryKeys

/-- The same column without its default. -/
def ColumnSchema.withoutDefault (c : ColumnSchema) : ColumnSchema := { c with default := none }

variable {s d : TableSchema}

theorem sameLayout_withoutDefaults (hkeys : d.primaryKeys = s.primaryKeys)
    (hcolumns : d.columns = s.columns.map ColumnSchema.withoutDefault) : SameLayout s d := by
  have hfield : ∀ {β : Type} (f : ColumnSchema → β), (∀ c, f c.withoutDefault = f c) →
      d.columns.map f = s.columns.map f := by
    intro β f hf
    rw [hcolumns, List.map_map]
    exact List.map_congr_left fun c _ => hf c
  constructor
  · exact hfield _ fun _ => rfl
  · exact hfield _ fun _ => rfl
  · exact hfield _ fun _ => rfl
  · exact hfield _ fun _ => rfl
  · exact hkeys

theorem columnsByName_withoutDefault (hnames : (s.columns.map (·.name)).Nodup)
    (hcolumns : d.columns = s.columns.map ColumnSchema.withoutDefault) {c : ColumnSchema}
    (hc : c ∈ s.columns) :
    (columnsByName d.columns).get? c.name = some c.withoutDefault := by
  have hnames' : (d.columns.map (·.name)).Nodup := by
    rw [hcolumns, List.map_map]
    exact hnames
  rw [columnsByName_get? _ hnames', hcolumns]
  exact ⟨List.mem_map.mpr ⟨c, hc, rfl⟩, rfl⟩

/-- A table that differs in its defaults only passes the validation without a warning. -/
theorem validate_withoutDefaults (hnames : (s.columns.map (·.name)).Nodup)
    (hcolumns : d.columns = s.columns.map ColumnSchema.withoutDefault) (hne : s.columns ≠ []) :
    validateSchemaCompatibility s (some d) = .ok [] := by
  have hsource : s.columns.foldlM (checkSourceColumn s (columnsByName d.columns)) [] = .ok [] := by
    apply ExceptList.foldlM_fixed
    intro c hc
    have hfamily : family c.withoutDefault.dataType = family c.dataType := rfl
    have hlength : ¬ (truthy c.withoutDefault.maxLength ∧ truthy c.maxLength ∧
        c.maxLength.getD 0 > c.withoutDefault.maxLength.getD 0) := by
      intro h
      exact Nat.lt_irrefl _ h.2.2
    rw [checkSourceColumn, columnsByName_withoutDefault hnames hcolumns hc]
    dsimp only
    rw [hfamily, if_neg (fun h => h.2.2 rfl), if_neg hlength]
  have hdest : (columnsByName d.columns).entries.foldlM
      (checkDestColumn d (columnsByName s.columns)) [] = .ok [] := by
    apply ExceptList.foldlM_fixed
    intro entry hentry
    have hkey : entry.1 ∈ (columnsByName d.columns).keys := List.mem_map.mpr ⟨entry, hentry, rfl⟩
    have hsame : d.columns.map (·.name) = s.columns.map (·.name) := by
      rw [hcolumns, List.map_map]
      rfl
    rw [mem_keys_columnsByName, hsame, ← mem_keys_columnsByName] at hkey
    rw [checkDestColumn, if_pos hkey]
  rw [validateSchemaCompatibility, if_neg hne]
  dsimp only
  rw [hsource]
  exact hdest

theorem buildColumnMappings_withoutDefaults (hnames : (s.columns.map (·.name)).Nodup)
    (hcolumns : d.columns = s.columns.map ColumnSchema.withoutDefault) :
    buildColumnMappings s (some d) = buildColumnMappings s none := by
  rw [buildColumnMappings, buildColumnMappings]
  apply List.map_congr_left
  intro c hc
  simp [buildColumnMapping, columnsByName_withoutDefault hnames hcolumns hc,
    ColumnSchema.withoutDefault]

open SQLiteProvider

/-- A SQLite table that a run created in a SQLite destination, read again on a new connection after
any writes, with whatever interrupts them: the layout is that of the source, the validation finds
nothing, and the mappings are those of the first attempt. -/
theorem sqlite_restart_same_plan (ignores : String → List Row → Row → Bool)
    (tableInfo : String → TableInfo) {tableName : String} {s : TableSchema}
    {source source' destination destination' : SqliteSession}
    (hread : getTableSchema tableInfo tableName source = (.returned s, source'))
    (hne : s.columns ≠ [])
    (hascii : ∀ row ∈ infoRows tableInfo source.conn tableName, PyText.isAscii row.type)
    (hwritten : (createStatement s).ReportedBy tableInfo)
    (habsent : tableName ∉ destination.conn.tables.keys)
    (hcreate : createTable s destination = (.returned (), destination')) (ops : List Operation) :
    ∃ d, (getTableSchema tableInfo tableName
        ⟨(after ignores ops destination').conn.reopened, []⟩).1 = .returned d ∧
      SameLayout s d ∧ validateSchemaCompatibility s (some d) = .ok [] ∧
      buildColumnMappings s (some d) = buildColumnMappings s none := by
  obtain ⟨table, htable, hs⟩ :=
    Call.wp_of_returned (wp_getTableSchema tableInfo tableName source) hread
  have hname : s.name = tableName := by
    rw [hs, tableSchema]
  have hdefined : (after ignores ops destination').conn.Defines tableName (tableDefinition s) := by
    rw [← hname] at habsent ⊢
    apply defines_after
    exact Call.wp_of_returned (wp_createTable s habsent) hcreate
  obtain ⟨created, hcreated, hdefinition⟩ := Option.map_eq_some_iff.mp hdefined.committed
  have hfound : (after ignores ops destination').conn.reopened.tables.get? tableName =
      some created := hcreated
  have hrows : (tableInfo created.definition).rows = (createStatement s).asWritten := by
    rw [hdefinition, ← createStatement_text]
    exact hwritten
  rw [infoRows, htable] at hascii
  have hagain := tableSchema_created tableName (tableInfo table.definition) table.rows.length
    created.rows.length hascii
  rw [← hs, ← hrows] at hagain
  refine ⟨_, congrArg Prod.fst (getTableSchema_of_present tableInfo hfound), ?_⟩
  rw [hagain]
  have hnames : (s.columns.map (·.name)).Nodup := by
    rw [hs]
    exact nodup_names _ tableName _
  have hcolumns : ((tableInfo table.definition).rows.map fun row =>
      { columnSchema row with default := none }) = s.columns.map ColumnSchema.withoutDefault := by
    rw [hs, tableSchema, List.map_map]
    rfl
  have hkeys : pks (tableInfo table.definition).rows = s.primaryKeys := by
    rw [hs, tableSchema]
  exact ⟨sameLayout_withoutDefaults hkeys hcolumns, validate_withoutDefaults hnames hcolumns hne,
    buildColumnMappings_withoutDefaults hnames hcolumns⟩

/-- A key over two columns, declared the other way round, and a column without a type. -/
private def linesInfo : TableInfo where
  rows :=
    [⟨"order", "integer", true, none, 2⟩, ⟨"item", "varchar(20)", true, some "''", 1⟩,
      ⟨"note", "", false, none, 0⟩]
  nodup := by decide

private def linesDefinition : String :=
  "\"order\" integer not null, item varchar(20) not null default '', note, " ++
    "primary key (item, \"order\")"

private def linesSchema : TableSchema := tableSchema "lines" linesInfo.rows 1

/-- What SQLite reports of the table, and of the one that is created from it. -/
private def linesCatalogue (definition : String) : TableInfo :=
  if definition = linesDefinition then linesInfo
  else if definition = (createStatement linesSchema).text then
    ⟨(createStatement linesSchema).asWritten, by decide⟩
  else ⟨[], List.nodup_nil⟩

private def linesSource : SqliteSession where
  conn := { committed := Dict.ofList [("lines", ⟨linesDefinition, [Dict.ofList [("order", .int 1)]]⟩)] }
  script := []

/-- An empty destination; the third call raises, when the table has been created. -/
private def linesDestination : SqliteSession where
  conn := { committed := Dict.empty }
  script := [none, none, some ⟨0, ⟨.other, "disk I/O error"⟩⟩]

theorem sqlite_restart_same_plan_lines :
    ∃ d, (getTableSchema linesCatalogue "lines"
        ⟨(after (fun _ _ _ => false)
          [.insertBatch "lines" [Dict.ofList [("order", .int 1)]] none]
          (createTable linesSchema linesDestination).2).conn.reopened, []⟩).1 = .returned d ∧
      SameLayout linesSchema d ∧ validateSchemaCompatibility linesSchema (some d) = .ok [] ∧
      buildColumnMappings linesSchema (some d) = buildColumnMappings linesSchema none := by
  have hread : getTableSchema linesCatalogue "lines" linesSource =
      (.returned linesSchema, linesSource) := by with_unfolding_all rfl
  have hwritten : (createStatement linesSchema).ReportedBy linesCatalogue := by
    change (linesCatalogue _).rows = _
    decide +kernel
  have hascii : ∀ row ∈ infoRows linesCatalogue linesSource.conn "lines",
      PyText.isAscii row.type := by decide +kernel
  have habsent : "lines" ∉ linesDestination.conn.tables.keys := by decide
  exact sqlite_restart_same_plan _ _ hread (by decide) hascii hwritten habsent rfl _

end DataBridge
