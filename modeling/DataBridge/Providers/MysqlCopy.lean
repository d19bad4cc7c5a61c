import DataBridge.Framework.ExceptList
import DataBridge.Providers.MysqlDeclaration

namespace DataBridge

open Mysql

namespace Mysql.SqlType

/-- A `DATA_TYPE` is reported in lower case. -/
theorem lower_dataType (t : SqlType) : PyText.lower t.dataType = t.dataType := by
  have hlower : ∀ name ∈ ["tinyint", "smallint", "mediumint", "int", "bigint", "decimal", "float",
      "double", "bit", "char", "varchar", "binary", "varbinary", "tinytext", "text", "mediumtext",
      "longtext", "tinyblob", "blob", "mediumblob", "longblob", "enum", "set", "date", "year",
      "time", "datetime", "timestamp", "json", "geometry", "point", "linestring", "polygon",
      "multipoint", "multilinestring", "multipolygon", "geomcollection"],
      PyText.lower name = name := by decide
  apply hlower
  cases t with
  | int size _ => cases size <;> simp [dataType, IntSize.name]
  | text _ size => cases size <;> simp [dataType, LobSize.textName]
  | blob size => cases size <;> simp [dataType, LobSize.blobName]
  | temporal kind _ => cases kind <;> simp [dataType, TimeKind.name]
  | spatial kind => cases kind <;> simp [dataType, Spatial.name]
  | _ => simp [dataType]

/-- The types that the catalogue reports without a length and without a scale. -/
theorem reported_plain {t : SqlType} (h : PyText.lower t.dataType ∈ ["tinyint", "smallint",
      "mediumint", "int", "bigint", "bool", "boolean", "bit", "date", "time", "datetime",
      "timestamp", "year", "json"]) :
    t.characterMaximumLength = none ∧ t.numericScale.getD 0 = 0 := by
  rw [lower_dataType] at h
  cases t with
  | text _ size => cases size <;> simp [dataType, LobSize.textName] at h
  | blob size => cases size <;> simp [dataType, LobSize.blobName] at h
  | int _ _ | bit _ | date | year | temporal _ _ | json | spatial _ => exact ⟨rfl, rfl⟩
  | _ => simp [dataType] at h

theorem reported_chars {t : SqlType} (hv : t.Valid)
    (h : PyText.lower t.dataType ∈ ["char", "varchar", "enum", "set"]) :
    t.characterMaximumLength.getD 0 ≤ 65535 ∧ t.numericScale = none := by
  rw [lower_dataType] at h
  cases t with
  | char _ n =>
    have hn : n ≤ 255 := hv
    exact ⟨hn.trans (by decide), rfl⟩
  | varchar _ n => exact ⟨hv, rfl⟩
  | enum labels => exact ⟨(longest_le hv).trans (by decide), rfl⟩
  | set labels =>
    have hlength := setText_length_lt hv.2
    have hcount := hv.1
    refine ⟨?_, rfl⟩
    change (setText labels).length ≤ 65535
    omega
  | int size _ => cases size <;> simp [dataType, IntSize.name] at h
  | text _ size => cases size <;> simp [dataType, LobSize.textName] at h
  | blob size => cases size <;> simp [dataType, LobSize.blobName] at h
  | temporal kind _ => cases kind <;> simp [dataType, TimeKind.name] at h
  | spatial kind => cases kind <;> simp [dataType, Spatial.name] at h
  | _ => simp [dataType] at h

theorem reported_text {t : SqlType} (h : PyText.lower t.dataType = "text") :
    t.characterMaximumLength.getD 0 ≠ 0 := by
  rw [lower_dataType] at h
  cases t with
  | text cs size => exact textLength_ne_zero cs size
  | int size _ => cases size <;> simp [dataType, IntSize.name] at h
  | blob size => cases size <;> simp [dataType, LobSize.blobName] at h
  | temporal kind _ => cases kind <;> simp [dataType, TimeKind.name] at h
  | spatial kind => cases kind <;> simp [dataType, Spatial.name] at h
  | _ => simp [dataType] at h

theorem reported_float {t : SqlType} (h : PyText.lower t.dataType = "float") :
    t.characterMaximumLength = none := by
  rw [lower_dataType] at h
  cases t with
  | text _ size => cases size <;> simp [dataType, LobSize.textName] at h
  | blob size => cases size <;> simp [dataType, LobSize.blobName] at h
  | int _ _ | decimal _ _ _ | float _ _ | double _ _ | bit _ | date | year | temporal _ _ | json
  | spatial _ => rfl
  | _ => simp [dataType] at h

theorem reported_decimal {t : SqlType} (hv : t.Valid)
    (h : PyText.lower t.dataType ∈ ["decimal", "numeric"]) :
    t.characterMaximumLength = none ∧ t.numericPrecision.getD 0 ≤ 65 ∧
      t.numericScale.getD 0 ≤ t.numericPrecision.getD 0 := by
  rw [lower_dataType] at h
  cases t with
  | decimal precision scale _ => exact ⟨rfl, hv.2.1, hv.2.2.2⟩
  | int size _ => cases size <;> simp [dataType, IntSize.name] at h
  | text _ size => cases size <;> simp [dataType, LobSize.textName] at h
  | blob size => cases size <;> simp [dataType, LobSize.blobName] at h
  | temporal kind _ => cases kind <;> simp [dataType, TimeKind.name] at h
  | spatial kind => cases kind <;> simp [dataType, Spatial.name] at h
  | _ => simp [dataType] at h

end Mysql.SqlType

namespace MySQLProvider

/-- A column of a MySQL table. -/
structure SourceColumn where
  name : String
  type : SqlType
  valid : type.Valid
  nullable : Bool
  default : Option String := none
  columnKey : String := ""
  notNull : columnKey = "PRI" → nullable = false

/-- The row of `information_schema.COLUMNS` for the column. -/
def SourceColumn.row (c : SourceColumn) : ColumnRow where
  columnName := c.name
  dataType := c.type.dataType
  isNullable := if c.nullable then "YES" else "NO"
  columnDefault := c.default
  characterMaximumLength := c.type.characterMaximumLength
  numericPrecision := c.type.numericPrecision
  numericScale := c.type.numericScale
  columnKey := c.columnKey
  plain := SqlType.reported_plain
  chars := SqlType.reported_chars c.valid
  text := SqlType.reported_text
  float := SqlType.reported_float
  decimal := SqlType.reported_decimal c.valid

/-- What the column holds; `none` is NULL. -/
def SourceColumn.Holds (c : SourceColumn) : Option Mysql.Value → Prop
  | none => c.nullable = true
  | some v => c.type.Holds v

/-- A table of MySQL. -/
structure SourceTable where
  name : String
  columns : List SourceColumn
  rowCount : Nat

/-- What `get_table_schema` returns for the table. -/
def SourceTable.schema (t : SourceTable) : TableSchema :=
  tableSchema t.name (t.columns.map SourceColumn.row) t.rowCount

/-- A column as MySQL creates it. -/
structure CreatedColumn where
  name : String
  type : SqlType
  nullable : Bool

def CreatedColumn.Holds (c : CreatedColumn) : Option Mysql.Value → Prop
  | none => c.nullable = true
  | some v => c.type.Holds v

/-- What MySQL makes of a column definition; `none` if it is an error. -/
def createdColumn (col : ColumnSchema) : Option CreatedColumn :=
  (declaredType (columnType .mysql col)).map fun type =>
    { name := col.name, type := type, nullable := col.isNullable }

/-- MySQL accepts the statement of `create_table`, each column definition and the table with its key
as a whole, and each created column holds what the column of the source does. Of the limits that
MySQL sets to a whole table, to its rows and keys, this says nothing: they are `admits`. -/
def NeverNarrows (admits : List CreatedColumn → List String → Prop) (t : SourceTable) : Prop :=
  ∃ created, t.schema.columns.mapM createdColumn = some created ∧
    admits created t.schema.primaryKeys ∧
    List.Forall₂ (fun (c : SourceColumn) (d : CreatedColumn) => ∀ v, c.Holds v → d.Holds v)
      t.columns created

/-- The column that is created for an accepted type. -/
def SourceColumn.copied (c : SourceColumn) : CreatedColumn where
  name := c.name
  type := c.type.copied
  nullable := c.nullable

theorem createdColumn_eq_some_iff (c : SourceColumn) (d : CreatedColumn) :
    createdColumn (columnSchema c.row) = some d ↔ c.type.Accepted ∧ d = c.copied := by
  have hwritten : columnType .mysql (columnSchema c.row) = c.type.spelled := rfl
  have hnullable : (columnSchema c.row).isNullable = c.nullable := by
    change decide ((if c.nullable then "YES" else "NO") = "YES") = c.nullable
    cases c.nullable <;> rfl
  rw [createdColumn, hwritten, hnullable, Option.map_eq_some_iff]
  constructor
  · intro h
    obtain ⟨type, htype, hd⟩ := h
    obtain ⟨ha, hcopied⟩ := (SqlType.declaredType_eq_some_iff c.valid type).mp htype
    rw [← hd, hcopied]
    exact ⟨ha, rfl⟩
  · intro h
    obtain ⟨ha, hd⟩ := h
    exact ⟨_, (SqlType.declaredType_eq_some_iff c.valid _).mpr ⟨ha, rfl⟩, hd.symm⟩

/-- The statement creates the columns just when every type is accepted. -/
theorem mapM_createdColumn_iff (columns : List SourceColumn) (created : List CreatedColumn) :
    ((columns.map SourceColumn.row).map columnSchema).mapM createdColumn = some created ↔
      (∀ c ∈ columns, c.type.Accepted) ∧ created = columns.map SourceColumn.copied := by
  have hcopies : List.Forall₂ (fun (c : SourceColumn) d => c.copied = d) columns created ↔
      columns.map SourceColumn.copied = created := by
    rw [← List.forall₂_map_left_iff (R := Eq), List.forall₂_eq_eq_eq]
  rw [ExceptList.mapM_some_iff, List.forall₂_map_left_iff, List.forall₂_map_left_iff]
  simp only [createdColumn_eq_some_iff, eq_comm (b := SourceColumn.copied _)]
  rw [List.forall₂_and_left, hcopies, eq_comm]

theorem holds_copied_iff (c : SourceColumn) (ha : c.type.Accepted) :
    (∀ v, c.Holds v → c.copied.Holds v) ↔ c.type.Kept := by
  rw [← SqlType.holds_copied_iff c.valid ha]
  constructor
  · exact fun h v => h (some v)
  · intro h v
    cases v with
    | none => exact id
    | some v => exact h v

/-- A MySQL table is created in MySQL with room for all its values just when each column has a type
that is accepted as it is written and that nothing unwritten made wider, and the limits of a whole
table admit the created one. -/
theorem neverNarrows_iff (admits : List CreatedColumn → List String → Prop) (t : SourceTable) :
    NeverNarrows admits t ↔ (∀ c ∈ t.columns, c.type.Accepted ∧ c.type.Kept) ∧
      admits (t.columns.map SourceColumn.copied)
        ((t.columns.filter (·.columnKey = "PRI")).map (·.name)) := by
  have hkeys : t.schema.primaryKeys = (t.columns.filter (·.columnKey = "PRI")).map (·.name) := by
    change (((t.columns.map SourceColumn.row).map columnSchema).filter
      (·.isPrimaryKey)).map (·.name) = _
    rw [List.map_map, List.filter_map, List.map_map]
    rfl
  have hcolumns : t.schema.columns = (t.columns.map SourceColumn.row).map columnSchema := rfl
  rw [NeverNarrows, hcolumns, hkeys]
  constructor
  · intro h
    obtain ⟨created, hcreated, hadmits, hholds⟩ := h
    obtain ⟨hall, hcopies⟩ := (mapM_createdColumn_iff t.columns created).mp hcreated
    subst hcopies
    refine ⟨fun c hc => ⟨hall c hc, ?_⟩, hadmits⟩
    rw [List.forall₂_map_right_iff, List.forall₂_same] at hholds
    exact (holds_copied_iff c (hall c hc)).mp (hholds c hc)
  · intro h
    obtain ⟨hall, hadmits⟩ := h
    refine ⟨_, (mapM_createdColumn_iff t.columns _).mpr ⟨fun c hc => (hall c hc).1, rfl⟩,
      hadmits, ?_⟩
    rw [List.forall₂_map_right_iff, List.forall₂_same]
    exact fun c hc => (holds_copied_iff c (hall c hc).1).mpr (hall c hc).2

private def invoices : SourceTable where
  name := "invoices"
  columns := [{
    name := "cents"
    type := .decimal 12 0 false
    valid := ⟨by decide, by decide, by decide, by decide⟩
    nullable := false
    notNull := fun _ => rfl }]
  rowCount := 0

private def notes : SourceTable where
  name := "notes"
  columns := [{
    name := "body"
    type := .text .utf8mb4 .medium
    valid := trivial
    nullable := true
    notNull := fun h => absurd h (by decide) }]
  rowCount := 0

/-- A DECIMAL(12,0) is created as a DECIMAL(10,0), and a MEDIUMTEXT with the length that is reported
of it is an error. -/
theorem columns_narrowed : ¬ NeverNarrows (fun _ _ => True) invoices ∧
    ¬ NeverNarrows (fun _ _ => True) notes := by
  constructor
  · intro h
    obtain ⟨created, hcreated, -, hholds⟩ := h
    obtain ⟨-, hcopies⟩ := (mapM_createdColumn_iff invoices.columns created).mp hcreated
    subst hcopies
    rw [List.forall₂_map_right_iff, List.forall₂_same] at hholds
    obtain ⟨hsource, hlost⟩ := SqlType.decimal_value (p := 12) (by decide) false
    exact hlost (hholds _ List.mem_cons_self (some _) hsource)
  · intro h
    obtain ⟨created, hcreated, -, -⟩ := h
    obtain ⟨hall, -⟩ := (mapM_createdColumn_iff notes.columns created).mp hcreated
    have hregular : LobSize.medium = .regular := hall _ List.mem_cons_self
    cases hregular

end MySQLProvider

end DataBridge
