import DataBridge.Migration.KeptValues
import DataBridge.Providers.SqliteInsert

namespace DataBridge

namespace SQLiteProvider

open Sqlite (affinityOf foldCase)

/-! ## The type of the new column -/

theorem mapped_cases (type : String) : (∃ e ∈ sqliteAffinityMap, mapped type = e.2) ∨
    mapped type = "TEXT" ∨
    sqliteAffinityMap.lookup (colType type) = none ∧ mapped type = PyText.upper type := by
  cases hl : sqliteAffinityMap.lookup (colType type) with
  | some known =>
    obtain ⟨before, after, hsplit, -⟩ := List.lookup_eq_some_iff.mp hl
    refine Or.inl ⟨(colType type, known), ?_, by rw [mapped, hl, Option.getD_some]⟩
    rw [hsplit]
    simp
  | none =>
    rw [mapped, hl, Option.getD_none]
    by_cases hempty : type = ""
    · exact Or.inr (Or.inl (if_pos hempty))
    · exact Or.inr (Or.inr ⟨rfl, if_neg hempty⟩)

/-- A new column whose base type is one of the integers has their affinity. -/
theorem affinityOf_integers {type : String}
    (h : baseType (mapped type) ∈ ["INTEGER", "SMALLINT", "BIGINT"]) :
    affinityOf (mapped type) = .integer := by
  rcases mapped_cases type with ⟨e, he, heq⟩ | heq | ⟨-, heq⟩
  · have hall : ∀ e ∈ sqliteAffinityMap, baseType e.2 ∈ ["INTEGER", "SMALLINT", "BIGINT"] →
        affinityOf e.2 = .integer := by decide +kernel
    rw [heq] at h ⊢
    exact hall e he h
  · rw [heq] at h
    exact absurd h (by decide)
  · rw [heq, baseType, PyText.upper_upper] at h
    rw [heq]
    have hword : ∀ w ∈ ["INTEGER", "SMALLINT", "BIGINT"], "int".toList <:+: foldCase w := by decide
    have hbase : foldCase (PyText.before '(' (PyText.upper type)) <:+:
        foldCase (PyText.upper type) := by
      rw [foldCase, foldCase, PyText.before, String.toList_ofList]
      exact ((List.takeWhile_prefix _).map _).isInfix
    exact if_pos (decide_eq_true ((hword _ h).trans hbase))

/-- Every spelling of BOOLEAN is in the table. -/
theorem mapped_boolean {type : String} (h : baseType (mapped type) = "BOOLEAN") :
    mapped type = "BOOLEAN" := by
  rcases mapped_cases type with ⟨e, he, heq⟩ | heq | ⟨hunknown, heq⟩
  · have hall : ∀ e ∈ sqliteAffinityMap, baseType e.2 = "BOOLEAN" → e.2 = "BOOLEAN" := by decide
    rw [heq] at h ⊢
    exact hall e he h
  · rw [heq] at h
    exact absurd h (by decide)
  · rw [heq, baseType, PyText.upper_upper, PyText.before_upper] at h
    have hletters : ∀ c ∈ (PyText.before '(' type).toList, ∀ d ∈ PyText.upperChar c,
        d ∈ "BOOLEAN".toList := by
      intro c hc d hd
      rw [← h]
      exact PyText.mem_upper hc hd
    have hcapital : "BOOLEAN".toList.all Char.isUpper := by decide
    have hascii : PyText.isAscii (PyText.before '(' type) = true := by
      apply List.all_eq_true.mpr
      intro c hc
      have hupper : ∀ d ∈ PyText.upperChar c, d.isUpper = true := by
        intro d hd
        exact List.all_eq_true.mp hcapital d (hletters c hc d hd)
      rcases PyText.alpha_of_upperChar hupper with halpha | hmem
      · exact decide_eq_true (PyText.ascii_of_isAlpha halpha)
      · have hall : (PyText.asciiCapitals.all fun c =>
            (PyText.upperChar c).any fun d => !"BOOLEAN".toList.contains d) := by decide
        obtain ⟨d, hd, hother⟩ := List.any_eq_true.mp (List.all_eq_true.mp hall c hmem)
        rw [List.contains_iff_mem.mpr (hletters c hc d hd)] at hother
        cases hother
    have hlower : PyText.lower (PyText.before '(' type) = "boolean" := by
      rw [← PyText.lower_upper hascii, h]
      decide
    rw [colType, PyText.before_lower, hlower] at hunknown
    exact absurd hunknown (by decide)

/-! ## Coerced values -/

/-- The values that `_coerce` leaves as they are, or makes True of 1 and False of 0. -/
def CoercedAlike (dataType : String) : Sqlite.Value → Prop
  | .text _ => baseType dataType ≠ "BOOLEAN"
  | .integer i _ => baseType dataType = "BOOLEAN" → i = 0 ∨ i = 1
  | .real _ => baseType dataType ∉ ["INTEGER", "SMALLINT", "BIGINT"]
  | .null | .blob _ => True

/-- The values that a copy into a new column keeps: they are coerced to what stands for the same, the
column stores them as they are, and where it is NOT NULL there is no NULL among them. -/
def KeptBy (c : Sqlite.Column) (notNull : Bool) (x : Sqlite.Value) : Prop :=
  CoercedAlike c.type x ∧ c.Keeps x ∧ (x = .null → notNull = false)

variable (reals : Sqlite.Reals)

/-- What a new row has of a value that is bound for the column; `none` where the value is refused, the
row is ignored, or the value becomes a new rowid. -/
def stored? (c : Sqlite.Column) (notNull : Bool) (w : Value) : Option Sqlite.Value :=
  match w.bound with
  | .error _ => none
  | .ok x =>
    match c.write reals x with
    | .value stored => if stored = .null ∧ notNull = true then none else some stored
    | .newRowid | .refused => none

/-- The coerced value is stored as the one that was read. -/
def StoredAlike (c : Sqlite.Column) (notNull : Bool) (x : Sqlite.Value) : Prop :=
  ∃ w, coerce x.read c.type = .ok w ∧ stored? reals c notNull w = some x

section coerced

variable {reals} {c : Sqlite.Column} {notNull : Bool} {x : Sqlite.Value} {w : Value}

theorem stored?_eq_some_iff {y : Sqlite.Value} (hbound : w.bound = .ok y) :
    stored? reals c notNull w = some x ↔
      c.write reals y = .value x ∧ (x = .null → notNull = false) := by
  rw [stored?, hbound]
  dsimp only
  cases c.write reals y with
  | value stored =>
    rw [Sqlite.Written.value.injEq]
    dsimp only
    by_cases hignored : stored = .null ∧ notNull = true
    · rw [if_pos hignored]
      refine iff_of_false (by simp) ?_
      intro h
      have hfalse := h.2 (h.1 ▸ hignored.1)
      rw [hignored.2] at hfalse
      cases hfalse
    · rw [if_neg hignored, Option.some.injEq]
      refine (and_iff_left_of_imp ?_).symm
      intro heq hnull
      rw [← heq] at hnull
      cases hn : notNull with
      | false => rfl
      | true => exact absurd ⟨hnull, hn⟩ hignored
  | newRowid => simp
  | refused => simp

theorem storedAlike_iff (hok : coerce x.read c.type = .ok w) :
    StoredAlike reals c notNull x ↔ stored? reals c notNull w = some x := by
  constructor
  · intro h
    obtain ⟨w', hok', hstored⟩ := h
    rw [hok] at hok'
    cases hok'
    exact hstored
  · exact fun h => ⟨w, hok, h⟩

/-- A value that is not coerced is stored alike just when the column keeps it. -/
theorem storedAlike_of_unchanged (hok : coerce x.read c.type = .ok x.read) :
    StoredAlike reals c notNull x ↔ c.Keeps x ∧ (x = .null → notNull = false) := by
  rw [storedAlike_iff hok, stored?_eq_some_iff (bound_read x), Sqlite.write_eq_value_iff]

/-- Where it is an integer that is bound, a value that differs from it may be stored only if the
affinity is not that of numbers. -/
theorem stored?_integer_ne {i : Int} {range : -2 ^ 63 ≤ i ∧ i < 2 ^ 63}
    (hbound : w.bound = .ok (.integer i range)) (haffinity : affinityOf c.type ∉ [.text, .real])
    (hx : x ≠ .integer i range) : stored? reals c notNull w ≠ some x := by
  rw [Ne, stored?_eq_some_iff hbound]
  intro h
  have hkept : c.write reals (.integer i range) = .value (.integer i range) :=
    (Sqlite.write_eq_value_iff c (.integer i range)).mpr haffinity
  rw [hkept] at h
  exact hx (Sqlite.Written.value.inj h.1).symm

theorem storedAlike_text (s : String) (hbool : baseType c.type = "BOOLEAN" → c.type = "BOOLEAN") :
    StoredAlike reals c notNull (.text s) ↔ KeptBy c notNull (.text s) := by
  have hok := coerce_str_eq s c.type
  by_cases hbase : baseType c.type = "BOOLEAN"
  · rw [if_pos hbase] at hok
    rw [storedAlike_iff (x := .text s) hok]
    refine iff_of_false ?_ fun h => h.1 hbase
    have haffinity : affinityOf c.type ∉ [.text, .real] := by
      rw [hbool hbase]
      decide
    cases decide (PyText.lower s ∈ ["1", "true", "yes", "t"]) with
    | true => exact stored?_integer_ne rfl haffinity (by simp)
    | false => exact stored?_integer_ne rfl haffinity (by simp)
  · rw [if_neg hbase] at hok
    rw [storedAlike_of_unchanged (x := .text s) hok, KeptBy]
    exact (and_iff_right hbase).symm

theorem storedAlike_integer (i : Int) (range : -2 ^ 63 ≤ i ∧ i < 2 ^ 63)
    (hbool : baseType c.type = "BOOLEAN" → c.type = "BOOLEAN") :
    StoredAlike reals c notNull (.integer i range) ↔ KeptBy c notNull (.integer i range) := by
  have hok := coerce_int_eq i c.type
  by_cases hbase : baseType c.type = "BOOLEAN"
  · rw [if_pos hbase] at hok
    rw [storedAlike_iff (x := .integer i range) hok]
    have haffinity : affinityOf c.type ∉ [.text, .real] := by
      rw [hbool hbase]
      decide
    have hkeeps : ∀ j range, c.write reals (.integer j range) = .value (.integer j range) :=
      fun j range => (Sqlite.write_eq_value_iff c (.integer j range)).mpr haffinity
    have hkept : KeptBy c notNull (.integer i range) ↔ i = 0 ∨ i = 1 := by
      rw [KeptBy, and_iff_left ⟨haffinity, fun h => by cases h⟩]
      exact forall_prop_of_true hbase
    rw [hkept]
    by_cases hzero : i = 0
    · have hbound : (Value.bool (decide (i ≠ 0))).bound = .ok (.integer 0 (by decide)) := by
        simp [hzero, Value.bound]
      rw [stored?_eq_some_iff hbound, hkeeps]
      simp [hzero]
    · have hbound : (Value.bool (decide (i ≠ 0))).bound = .ok (.integer 1 (by decide)) := by
        simp [hzero, Value.bound]
      rw [stored?_eq_some_iff hbound, hkeeps]
      simp [hzero, eq_comm]
  · rw [if_neg hbase] at hok
    rw [storedAlike_of_unchanged (x := .integer i range) hok, KeptBy]
    exact (and_iff_right fun h => absurd h hbase).symm

/-- A real for a column of integers is stored as an integer, if at all. -/
theorem storedAlike_real (r : Sqlite.Real)
    (hint : baseType c.type ∈ ["INTEGER", "SMALLINT", "BIGINT"] → affinityOf c.type = .integer) :
    StoredAlike reals c notNull (.real r) ↔ KeptBy c notNull (.real r) := by
  obtain ⟨f, hread⟩ : ∃ f, (Sqlite.Value.real r).read = .float f := by
    cases r with
    | finite q => exact ⟨_, rfl⟩
    | infinite negative => exact ⟨_, rfl⟩
  have hok := coerce_float_eq f c.type
  rw [← hread] at hok
  by_cases hbase : baseType c.type ∈ ["INTEGER", "SMALLINT", "BIGINT"]
  · rw [if_pos hbase] at hok
    refine iff_of_false ?_ fun h => h.1 hbase
    intro h
    obtain ⟨w, hw, hstored⟩ := h
    rw [hok] at hw
    obtain ⟨i, -, rfl⟩ := ExceptList.map_ok_iff.mp hw
    by_cases range : -2 ^ 63 ≤ i ∧ i < 2 ^ 63
    · have hbound : (Value.int i).bound = .ok (.integer i range) := dif_pos range
      have haffinity : affinityOf c.type ∉ [.text, .real] := by
        rw [hint hbase]
        decide
      exact stored?_integer_ne hbound haffinity (by simp) hstored
    · have hbound : ∃ exc, (Value.int i).bound = .error exc := ⟨_, dif_neg range⟩
      obtain ⟨exc, hexc⟩ := hbound
      rw [stored?, hexc] at hstored
      cases hstored
  · rw [if_neg hbase] at hok
    rw [storedAlike_of_unchanged hok, KeptBy]
    exact (and_iff_right hbase).symm

end coerced

/-- The column that `create_table` makes for a column of the table. -/
def createdColumn (info : TableInfo) (col : TableInfoRow) : Sqlite.Column where
  type := mapped col.type
  soleKey := col.pk ≠ 0 && (pks info.rows).length = 1

theorem createdColumn_type (info : TableInfo) (col : TableInfoRow) :
    (createdColumn info col).type = mapped col.type := by
  simp only [createdColumn]

theorem storedAlike_iff_keptBy (info : TableInfo) (col : TableInfoRow) (x : Sqlite.Value) :
    StoredAlike reals (createdColumn info col) col.notnull x ↔
      KeptBy (createdColumn info col) col.notnull x := by
  have hbool : baseType (createdColumn info col).type = "BOOLEAN" →
      (createdColumn info col).type = "BOOLEAN" := by
    rw [createdColumn_type]
    exact mapped_boolean
  have hint : baseType (createdColumn info col).type ∈ ["INTEGER", "SMALLINT", "BIGINT"] →
      affinityOf (createdColumn info col).type = .integer := by
    rw [createdColumn_type]
    exact affinityOf_integers
  cases x with
  | null =>
    rw [storedAlike_of_unchanged (coerce_plain (by simp [Sqlite.Value.read]) _), KeptBy]
    exact (and_iff_right trivial).symm
  | blob b =>
    rw [storedAlike_of_unchanged (coerce_plain (by simp [Sqlite.Value.read]) _), KeptBy]
    exact (and_iff_right trivial).symm
  | text s => exact storedAlike_text s hbool
  | integer i range => exact storedAlike_integer i range hbool
  | real r => exact storedAlike_real r hint

/-! ## Rows -/

/-- Every column of the table has a value of SQLite in the row. -/
def RowOfTable (info : TableInfo) (row : Row) : Prop :=
  ∀ col ∈ info.rows, ∃ x : Sqlite.Value, row.get col.name = x.read

/-- What the new row has for every column of the created table, written as `created`, is stored as
the value of the old row was. -/
def RowStoredAlike (created : List TableInfoRow) (row new : Row) : Prop :=
  ∀ c ∈ created, ∃ w x, new.get? c.name = some w ∧ row.get c.name = x.read ∧
    stored? reals (columnOf created c) c.notnull w = some x

section row

variable {info : TableInfo} {schema : TableSchema} {row new : Row}

/-- Without a destination every column has one descriptor, with its own type. -/
theorem mem_activeMappings_none {m : ColumnMapping} :
    m ∈ activeMappings (buildColumnMappings schema none) ↔
      ∃ col ∈ schema.columns, m = buildColumnMapping Dict.empty false col := by
  rw [activeMappings, List.mem_filter, buildColumnMappings, List.mem_map]
  constructor
  · intro h
    obtain ⟨⟨col, hcol, hm⟩, -⟩ := h
    exact ⟨col, hcol, hm.symm⟩
  · intro h
    obtain ⟨col, hcol, hm⟩ := h
    subst hm
    exact ⟨⟨col, hcol, rfl⟩, rfl⟩

theorem destCols_none (schema : TableSchema) :
    (activeMappings (buildColumnMappings schema none)).map (·.destCol) =
      schema.columns.map (·.name) := by
  have hall : ∀ m ∈ buildColumnMappings schema none, m.included = true := by
    intro m hm
    obtain ⟨col, -, rfl⟩ := List.mem_map.mp hm
    rfl
  rw [activeMappings, List.filter_eq_self.mpr hall, buildColumnMappings, List.map_map]
  rfl

/-- Without a destination every value is coerced to the type of its own column. -/
theorem transformRow_none (hn : (schema.columns.map (·.name)).Nodup)
    (hnew : transformRow (activeMappings (buildColumnMappings schema none)) row = .ok new)
    {col : ColumnSchema} (hcol : col ∈ schema.columns) :
    ∃ w, coerce (row.get col.name) col.dataType = .ok w ∧ new.get? col.name = some w := by
  rw [← destCols_none] at hn
  exact (transformRow_get? hn hnew).1 _ (mem_activeMappings_none.mpr ⟨col, hcol, rfl⟩)

theorem transformRow_none_exists
    (h : ∀ col ∈ schema.columns, ∃ w, coerce (row.get col.name) col.dataType = .ok w) :
    ∃ new, transformRow (activeMappings (buildColumnMappings schema none)) row = .ok new := by
  apply transformRow_exists
  intro m hm
  obtain ⟨col, hcol, rfl⟩ := mem_activeMappings_none.mp hm
  exact h col hcol

/-- The columns of the table that `create_table` makes. -/
theorem columnOf_created (tableName : String) (n : Nat) {col : TableInfoRow} (hcol : col ∈ info.rows) :
    columnOf (createStatement (tableSchema tableName info.rows n)).asWritten
      (createdRow (pks info.rows) col) = createdColumn info col := by
  have hkey := createdRow_pk hcol
  have htype : (createdRow (pks info.rows) col).type = mapped col.type := by rw [createdRow]
  rw [asWritten_createStatement, columnOf, pks_created, createdColumn, htype]
  simp only [hkey]

/-- A value of a column of SQLite is coerced to the type that `get_table_schema` writes. -/
theorem transformRow_created {tableName : String} {n : Nat} (hnew : transformRow
      (activeMappings (buildColumnMappings (tableSchema tableName info.rows n) none)) row = .ok new)
    {col : TableInfoRow} (hcol : col ∈ info.rows) :
    ∃ w, coerce (row.get col.name) (mapped col.type) = .ok w ∧ new.get? col.name = some w := by
  have hmem : columnSchema col ∈ (tableSchema tableName info.rows n).columns :=
    List.mem_map_of_mem hcol
  have hcoerced := transformRow_none (nodup_names info tableName n) hnew hmem
  dsimp only [columnSchema] at hcoerced
  exact hcoerced

theorem row_storedAlike_iff {tableName : String} {n : Nat} (hrow : RowOfTable info row) :
    (∃ new, transformRow
          (activeMappings (buildColumnMappings (tableSchema tableName info.rows n) none)) row =
            .ok new ∧
        RowStoredAlike reals (createStatement (tableSchema tableName info.rows n)).asWritten row
          new) ↔
      ∀ col ∈ info.rows, ∀ x : Sqlite.Value, row.get col.name = x.read →
        KeptBy (createdColumn info col) col.notnull x := by
  have hcreated : ∀ {P : TableInfoRow → Prop},
      (∀ c ∈ (createStatement (tableSchema tableName info.rows n)).asWritten, P c) ↔
        ∀ col ∈ info.rows, P (createdRow (pks info.rows) col) := by
    intro P
    rw [asWritten_createStatement, List.forall_mem_map]
  constructor
  · intro h col hcol x hx
    obtain ⟨new, hnew, hstored⟩ := h
    obtain ⟨w, hok, hw⟩ := transformRow_created hnew hcol
    obtain ⟨w', x', hw', hx', hsame⟩ := hcreated.mp hstored col hcol
    rw [createdRow_name] at hw' hx'
    rw [columnOf_created tableName n hcol, createdRow_notnull] at hsame
    rw [hw] at hw'
    cases hw'
    have heq : x' = x := read_injective (hx'.symm.trans hx)
    rw [heq] at hsame
    rw [hx, ← createdColumn_type info col] at hok
    exact (storedAlike_iff_keptBy reals info col x).mp ⟨w, hok, hsame⟩
  · intro hkept
    have halike : ∀ col ∈ info.rows, ∃ x : Sqlite.Value, row.get col.name = x.read ∧
        StoredAlike reals (createdColumn info col) col.notnull x := by
      intro col hcol
      obtain ⟨x, hx⟩ := hrow col hcol
      exact ⟨x, hx, (storedAlike_iff_keptBy reals info col x).mpr (hkept col hcol x hx)⟩
    obtain ⟨new, hnew⟩ : ∃ new, transformRow
        (activeMappings (buildColumnMappings (tableSchema tableName info.rows n) none)) row =
          .ok new := by
      apply transformRow_none_exists
      intro c hc
      obtain ⟨col, hcol, rfl⟩ := List.mem_map.mp hc
      obtain ⟨x, hx, w, hok, -⟩ := halike col hcol
      rw [createdColumn_type] at hok
      dsimp only [columnSchema]
      rw [hx]
      exact ⟨w, hok⟩
    refine ⟨new, hnew, hcreated.mpr ?_⟩
    intro col hcol
    obtain ⟨x, hx, w, hok, hstored⟩ := halike col hcol
    obtain ⟨w', hok', hw'⟩ := transformRow_created hnew hcol
    rw [createdColumn_type] at hok
    rw [hx, hok] at hok'
    cases hok'
    rw [createdRow_name, createdRow_notnull, columnOf_created tableName n hcol]
    exact ⟨w, x, hw', hx, hstored⟩

end row

/-- The rows of a SQLite table are stored in the table that is created for it as they were stored
before, just when every column keeps the values that it holds. -/
theorem fresh_copy_storedAlike_iff (tableName : String) (info : TableInfo) (rowCount : Nat)
    {rows : List Row} (hrows : ∀ row ∈ rows, RowOfTable info row) :
    (∃ news, applyMappings rows
          (buildColumnMappings (tableSchema tableName info.rows rowCount) none) = .ok news ∧
        List.Forall₂ (RowStoredAlike reals
          (createStatement (tableSchema tableName info.rows rowCount)).asWritten) rows news) ↔
      ∀ row ∈ rows, ∀ col ∈ info.rows, ∀ x : Sqlite.Value, row.get col.name = x.read →
        KeptBy (createdColumn info col) col.notnull x := by
  rw [applyMappings, ExceptList.mapM_forall₂_iff]
  exact forall₂_congr fun row hrow => row_storedAlike_iff reals (hrows row hrow)

/-- A table with a column of numbers, a flag and a column of any values. -/
private def readings : TableInfo where
  rows := [⟨"reading", "INT", false, none, 0⟩, ⟨"valid", "Boolean", false, none, 0⟩,
    ⟨"note", "", false, none, 0⟩]
  nodup := by decide

private def readingRow (reading valid note : Sqlite.Value) : Row :=
  Dict.ofList [("reading", reading.read), ("valid", valid.read), ("note", note.read)]

private theorem readingRow_ofTable (reading valid note : Sqlite.Value) :
    RowOfTable readings (readingRow reading valid note) := by
  intro col hcol
  rcases List.mem_cons.mp hcol with heq | hcol
  · exact ⟨reading, by rw [heq]; rfl⟩
  rcases List.mem_cons.mp hcol with heq | hcol
  · exact ⟨valid, by rw [heq]; rfl⟩
  · exact ⟨note, by rw [List.mem_singleton.mp hcol]; rfl⟩

/-- Numbers that are not rounded, and no text for them. -/
private def exactReals : Sqlite.Reals := { nearest := .finite, text := fun _ => "" }

theorem fresh_copy_storedAlike_iff_readings :
    ∃ news, applyMappings
        [readingRow (.integer 7 (by decide)) (.integer 1 (by decide)) (.text "calm")]
        (buildColumnMappings (tableSchema "readings" readings.rows 1) none) = .ok news ∧
      List.Forall₂ (RowStoredAlike exactReals
          (createStatement (tableSchema "readings" readings.rows 1)).asWritten)
        [readingRow (.integer 7 (by decide)) (.integer 1 (by decide)) (.text "calm")] news := by
  refine (fresh_copy_storedAlike_iff exactReals "readings" readings 1 fun row hrow => ?_).mpr ?_
  · rw [List.mem_singleton.mp hrow]
    exact readingRow_ofTable _ _ _
  · intro row hrow col hcol x hx
    rw [List.mem_singleton.mp hrow] at hx
    have hbound := congrArg Value.bound hx
    rw [bound_read] at hbound
    rcases List.mem_cons.mp hcol with heq | hcol
    · subst heq
      cases hbound
      exact ⟨fun h => absurd h (by decide), by unfold Sqlite.Column.Keeps; decide +kernel,
        fun h => by cases h⟩
    rcases List.mem_cons.mp hcol with heq | hcol
    · subst heq
      cases hbound
      exact ⟨fun _ => Or.inr rfl, by unfold Sqlite.Column.Keeps; decide +kernel, fun h => by cases h⟩
    · obtain rfl := List.mem_singleton.mp hcol
      cases hbound
      exact ⟨by unfold CoercedAlike; decide, by unfold Sqlite.Column.Keeps; decide +kernel,
        fun h => by cases h⟩

/-- The reading 1.5 of a column INT arrives as 1, and the text yes of a Boolean column as 1. -/
theorem reading_truncated :
    (∀ row ∈ [readingRow (.real (.finite (3 / 2))) (.text "yes") (.text "calm")],
      RowOfTable readings row) ∧
    ¬ ∃ news, applyMappings [readingRow (.real (.finite (3 / 2))) (.text "yes") (.text "calm")]
        (buildColumnMappings (tableSchema "readings" readings.rows 1) none) = .ok news ∧
      List.Forall₂ (RowStoredAlike exactReals
          (createStatement (tableSchema "readings" readings.rows 1)).asWritten)
        [readingRow (.real (.finite (3 / 2))) (.text "yes") (.text "calm")] news := by
  constructor
  · intro row hrow
    rw [List.mem_singleton.mp hrow]
    exact readingRow_ofTable _ _ _
  · intro hkept
    obtain ⟨news, happly, hrel⟩ := hkept
    have hnews : applyMappings [readingRow (.real (.finite (3 / 2))) (.text "yes") (.text "calm")]
        (buildColumnMappings (tableSchema "readings" readings.rows 1) none) =
          .ok [Dict.ofList [("reading", .int 1), ("valid", .bool true), ("note", .str "calm")]] := by
      decide +kernel
    rw [hnews] at happly
    cases happly
    rw [List.forall₂_cons] at hrel
    obtain ⟨w, x, hw, hx, hsame⟩ := hrel.1 _ List.mem_cons_self
    have hbound := congrArg Value.bound hx
    rw [bound_read] at hbound
    cases hbound
    cases hw
    exact absurd hsame (by decide +kernel)

end SQLiteProvider

end DataBridge
