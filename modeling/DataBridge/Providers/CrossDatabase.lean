import DataBridge.Providers.TableStatements

namespace DataBridge

/-- Names that PostgreSQL has as types, without a size. -/
def postgresNames : List String :=
  ["SMALLINT", "INT", "INTEGER", "BIGINT", "FLOAT", "DECIMAL", "CHAR", "VARCHAR", "TEXT", "DATE",
    "TIME", "TIMESTAMP", "BOOLEAN", "BIT", "JSON"]

/-- Names of types of MySQL and SQLite that PostgreSQL does not have. -/
def notPostgresNames : List String :=
  ["TINYINT", "MEDIUMINT", "DOUBLE", "TINYTEXT", "MEDIUMTEXT", "LONGTEXT", "TINYBLOB", "BLOB",
    "MEDIUMBLOB", "LONGBLOB", "DATETIME", "YEAR"]

/-- Names that MySQL takes as types without a size. -/
def mysqlNames : List String :=
  ["SMALLINT", "INTEGER", "BIGINT", "FLOAT", "DOUBLE", "DOUBLE PRECISION", "DECIMAL", "NUMERIC",
    "CHAR", "TEXT", "BLOB", "BOOLEAN", "DATE", "TIME", "DATETIME", "TIMESTAMP", "JSON"]

/-- Names of types of PostgreSQL that MySQL does not have. -/
def notMysqlNames : List String :=
  ["BYTEA", "TIMETZ", "TIMESTAMPTZ", "INTERVAL", "UUID", "JSONB"]

/-- What the manuals say of the types a column definition may name, as far as the tables of the
providers go. Of any other name `accepts` may say what it likes: PostgreSQL has the types that its
databases define, and SQLite takes most words. -/
structure DocumentedTypes (accepts : Dialect → ColumnType → Prop) : Prop where
  postgres_has : ∀ name ∈ postgresNames, accepts .postgres ⟨name, .unsized⟩
  postgres_chars : ∀ name ∈ ["CHAR", "VARCHAR"], ∀ n, 0 < n → n ≤ 10485760 →
    accepts .postgres ⟨name, .length n⟩
  postgres_decimal : ∀ p s, 0 < s → s ≤ p → p ≤ 1000 →
    accepts .postgres ⟨"DECIMAL", .precision p s⟩
  postgres_float : ∀ p s, ¬ accepts .postgres ⟨"FLOAT", .precision p s⟩
  postgres_text : ∀ n, ¬ accepts .postgres ⟨"TEXT", .length n⟩
  postgres_lacks : ∀ name ∈ notPostgresNames, ∀ size, ¬ accepts .postgres ⟨name, size⟩
  mysql_has : ∀ name ∈ mysqlNames, accepts .mysql ⟨name, .unsized⟩
  mysql_varchar : ∀ n, 0 < n → (accepts .mysql ⟨"VARCHAR", .length n⟩ ↔ n ≤ 16383)
  mysql_varchar_unsized : ¬ accepts .mysql ⟨"VARCHAR", .unsized⟩
  mysql_char : ∀ n, 0 < n → (accepts .mysql ⟨"CHAR", .length n⟩ ↔ n ≤ 255)
  mysql_numeric : ∀ p s, 0 < p → 0 < s →
    (accepts .mysql ⟨"NUMERIC", .precision p s⟩ ↔ p ≤ 65 ∧ s ≤ 30 ∧ s ≤ p)
  mysql_lacks : ∀ name ∈ notMysqlNames, ∀ size, ¬ accepts .mysql ⟨name, size⟩
  sqlite_has : ∀ name ∈ MySQLProvider.mysqlTypeMap.map Prod.snd ++
    PostgresProvider.pgTypeMap.map Prod.snd, accepts .sqlite ⟨name, .unsized⟩

theorem TypeSize.of_unsized {maxLength precision scale : Option Nat} (hl : maxLength.getD 0 = 0)
    (hs : scale.getD 0 = 0) : TypeSize.of maxLength precision scale = .unsized := by
  rw [TypeSize.of, if_neg (by simp [hl]), if_neg (by simp [hs])]

theorem TypeSize.of_length {maxLength precision scale : Option Nat} (hl : maxLength.getD 0 ≠ 0) :
    TypeSize.of maxLength precision scale = .length (maxLength.getD 0) := if_pos hl

theorem TypeSize.of_precision {precision scale : Option Nat} (hp : precision.getD 0 ≠ 0)
    (hs : scale.getD 0 ≠ 0) :
    TypeSize.of none precision scale = .precision (precision.getD 0) (scale.getD 0) := by
  rw [TypeSize.of, if_neg (by simp), if_pos ⟨hp, hs⟩]

theorem lookup_of_notMem {map : List (String × String)} {key : String}
    (h : key ∉ map.map Prod.fst) : map.lookup key = none := by
  rw [List.lookup_eq_none_iff]
  intro e he
  rw [bne_iff_ne]
  intro heq
  exact h (List.mem_map.mpr ⟨e, he, heq.symm⟩)

theorem lookup_of_mem {map : List (String × String)} {key : String} (h : key ∈ map.map Prod.fst) :
    ∃ name ∈ map.map Prod.snd, map.lookup key = some name := by
  cases hl : map.lookup key with
  | none =>
    obtain ⟨e, he, hkey⟩ := List.mem_map.mp h
    have hne := List.lookup_eq_none_iff.mp hl e he
    rw [hkey, bne_self_eq_false] at hne
    cases hne
  | some name =>
    obtain ⟨front, back, hsplit, -⟩ := List.lookup_eq_some_iff.mp hl
    refine ⟨name, ?_, rfl⟩
    rw [hsplit]
    simp

variable {accepts : Dialect → ColumnType → Prop}

namespace MySQLProvider

/-- Keys of the table whose type PostgreSQL does not have, or not with the size reported of it. -/
def notInPostgres : List String :=
  ["tinyint", "mediumint", "double", "tinytext", "text", "mediumtext", "longtext", "tinyblob",
    "blob", "mediumblob", "longblob", "datetime", "year"]

def ColumnRow.size (r : ColumnRow) : TypeSize :=
  TypeSize.of r.characterMaximumLength r.numericPrecision r.numericScale

/-- When PostgreSQL accepts the column: MySQL's type is one PostgreSQL has too, a FLOAT is declared
without digits, and a type outside the table is one that this PostgreSQL has. -/
structure ColumnRow.FitsPostgres (accepts : Dialect → ColumnType → Prop) (r : ColumnRow) : Prop where
  known : PyText.lower r.dataType ∉ notInPostgres
  float : PyText.lower r.dataType = "float" →
    r.numericPrecision.getD 0 = 0 ∨ r.numericScale.getD 0 = 0
  passed : PyText.lower r.dataType ∉ mysqlTypeMap.map Prod.fst →
    accepts .postgres ⟨PyText.upper r.dataType, r.size⟩

/-- SQLite accepts the types of the table; of any other it must take the name. -/
def ColumnRow.FitsSqlite (accepts : Dialect → ColumnType → Prop) (r : ColumnRow) : Prop :=
  PyText.lower r.dataType ∉ mysqlTypeMap.map Prod.fst →
    accepts .sqlite ⟨PyText.upper r.dataType, .unsized⟩

/-- The keys of the table by what PostgreSQL makes of their types. -/
theorem keys_cases : ∀ key ∈ mysqlTypeMap.map Prod.fst,
    (key ∈ notInPostgres ∧ ∃ name ∈ notPostgresNames, mysqlTypeMap.lookup key = some name) ∨
    key = "text" ∨ key = "float" ∨
    (key ∉ notInPostgres ∧ key ≠ "float" ∧
      ((key ∈ ["tinyint", "smallint", "mediumint", "int", "bigint", "bool", "boolean", "bit",
          "date", "time", "datetime", "timestamp", "year", "json"] ∧
        ∃ name ∈ postgresNames, mysqlTypeMap.lookup key = some name) ∨
      (key ∈ ["char", "varchar", "enum", "set"] ∧
        ∃ name ∈ ["CHAR", "VARCHAR"], mysqlTypeMap.lookup key = some name) ∨
      (key ∈ ["decimal", "numeric"] ∧ mysqlTypeMap.lookup key = some "DECIMAL"))) := by decide

variable {r : ColumnRow}

theorem columnType_known {name : String}
    (h : mysqlTypeMap.lookup (PyText.lower r.dataType) = some name) :
    columnType .postgres (columnSchema r) = ⟨name, r.size⟩ := by
  simp [columnType, columnSchema, h, ColumnRow.size]

theorem fitsPostgres_of_known (hkey : PyText.lower r.dataType ∈ mysqlTypeMap.map Prod.fst)
    (hin : PyText.lower r.dataType ∉ notInPostgres) (hf : PyText.lower r.dataType ≠ "float") :
    r.FitsPostgres accepts where
  known := hin
  float h := absurd h hf
  passed h := absurd hkey h

theorem accepts_chars (h : DocumentedTypes accepts) {name : String}
    (hname : name ∈ ["CHAR", "VARCHAR"])
    (hr : PyText.lower r.dataType ∈ ["char", "varchar", "enum", "set"]) :
    accepts .postgres ⟨name, r.size⟩ := by
  obtain ⟨hlength, hscale⟩ := r.chars hr
  by_cases hzero : r.characterMaximumLength.getD 0 = 0
  · rw [ColumnRow.size, TypeSize.of_unsized hzero (by rw [hscale]; rfl)]
    have hnames : ∀ name ∈ ["CHAR", "VARCHAR"], name ∈ postgresNames := by decide
    exact h.postgres_has name (hnames name hname)
  · rw [ColumnRow.size, TypeSize.of_length hzero]
    exact h.postgres_chars name hname _ (by omega) (by omega)

theorem accepts_decimal (h : DocumentedTypes accepts)
    (hr : PyText.lower r.dataType ∈ ["decimal", "numeric"]) :
    accepts .postgres ⟨"DECIMAL", r.size⟩ := by
  obtain ⟨hlength, hprecision, hscale⟩ := r.decimal hr
  by_cases hzero : r.numericScale.getD 0 = 0
  · rw [ColumnRow.size, TypeSize.of_unsized (by rw [hlength]; rfl) hzero]
    exact h.postgres_has "DECIMAL" (by decide)
  · rw [ColumnRow.size, hlength, TypeSize.of_precision (by omega) hzero]
    exact h.postgres_decimal _ _ (by omega) hscale (by omega)

theorem accepts_float_iff (h : DocumentedTypes accepts) (hr : PyText.lower r.dataType = "float") :
    accepts .postgres ⟨"FLOAT", r.size⟩ ↔
      r.numericPrecision.getD 0 = 0 ∨ r.numericScale.getD 0 = 0 := by
  have hlength := r.float hr
  by_cases hdigits : r.numericPrecision.getD 0 ≠ 0 ∧ r.numericScale.getD 0 ≠ 0
  · rw [ColumnRow.size, hlength, TypeSize.of_precision hdigits.1 hdigits.2]
    exact iff_of_false (h.postgres_float _ _) (by omega)
  · have hsize : r.size = .unsized := by
      rw [ColumnRow.size, hlength, TypeSize.of, if_neg (by simp), if_neg hdigits]
    rw [hsize]
    exact iff_of_true (h.postgres_has "FLOAT" (by decide)) (by omega)

/-- A MySQL column is created in PostgreSQL just when it fits. -/
theorem accepts_postgres_iff (h : DocumentedTypes accepts) (r : ColumnRow) :
    accepts .postgres (columnType .postgres (columnSchema r)) ↔ r.FitsPostgres accepts := by
  by_cases hkey : PyText.lower r.dataType ∈ mysqlTypeMap.map Prod.fst
  · rcases keys_cases _ hkey with ⟨hin, name, hname, hlookup⟩ | htext | hfloat | ⟨hin, hf, hrest⟩
    · rw [columnType_known hlookup]
      exact iff_of_false (h.postgres_lacks name hname _) fun hfit => hfit.known hin
    · have hlookup : mysqlTypeMap.lookup (PyText.lower r.dataType) = some "TEXT" := by
        rw [htext]
        decide
      have hsize : r.size = .length (r.characterMaximumLength.getD 0) :=
        TypeSize.of_length (r.text htext)
      have hin : PyText.lower r.dataType ∈ notInPostgres := by
        rw [htext]
        decide
      rw [columnType_known hlookup, hsize]
      exact iff_of_false (h.postgres_text _) fun hfit => hfit.known hin
    · have hlookup : mysqlTypeMap.lookup (PyText.lower r.dataType) = some "FLOAT" := by
        rw [hfloat]
        decide
      have hin : PyText.lower r.dataType ∉ notInPostgres := by
        rw [hfloat]
        decide
      rw [columnType_known hlookup, accepts_float_iff h hfloat]
      constructor
      · exact fun hdigits => ⟨hin, fun _ => hdigits, fun hout => absurd hkey hout⟩
      · exact fun hfit => hfit.float hfloat
    · have hfits : r.FitsPostgres accepts := fitsPostgres_of_known hkey hin hf
      rcases hrest with ⟨hplain, name, hname, hlookup⟩ | ⟨hchars, name, hname, hlookup⟩ |
        ⟨hdecimal, hlookup⟩
      · obtain ⟨hlength, hscale⟩ := r.plain hplain
        have hsize : r.size = .unsized := TypeSize.of_unsized (by rw [hlength]; rfl) hscale
        rw [columnType_known hlookup, hsize]
        exact iff_of_true (h.postgres_has name hname) hfits
      · rw [columnType_known hlookup]
        exact iff_of_true (accepts_chars h hname hchars) hfits
      · rw [columnType_known hlookup]
        exact iff_of_true (accepts_decimal h hdecimal) hfits
  · have htype : columnType .postgres (columnSchema r) = ⟨PyText.upper r.dataType, r.size⟩ := by
      simp [columnType, columnSchema, lookup_of_notMem hkey, ColumnRow.size]
    have hnotIn : ∀ key ∈ "float" :: notInPostgres, key ∈ mysqlTypeMap.map Prod.fst := by decide
    rw [htype]
    constructor
    · intro haccepts
      refine ⟨fun hin => hkey (hnotIn _ (List.mem_cons_of_mem _ hin)), ?_, fun _ => haccepts⟩
      intro hfloat
      exact absurd (hnotIn _ (hfloat ▸ List.mem_cons_self)) hkey
    · exact fun hfit => hfit.passed hkey

end MySQLProvider

namespace PostgresProvider

/-- Keys of the table whose type MySQL does not have. -/
def notInMysql : List String := ["bytea", "timetz", "timestamptz", "interval", "uuid", "jsonb"]

def ColumnRow.size (r : ColumnRow) : TypeSize :=
  TypeSize.of r.characterMaximumLength r.numericPrecision r.numericScale

/-- When MySQL accepts the column: it has PostgreSQL's type, the size is within its bounds, and a
type outside the table is one that it has. -/
structure ColumnRow.FitsMysql (accepts : Dialect → ColumnType → Prop) (r : ColumnRow) : Prop where
  known : r.dataType ∉ notInMysql
  varchar : r.dataType = "varchar" →
    r.characterMaximumLength.getD 0 ≠ 0 ∧ r.characterMaximumLength.getD 0 ≤ 16383
  char : r.dataType = "bpchar" → r.characterMaximumLength.getD 0 ≤ 255
  numeric : r.dataType = "numeric" → r.numericPrecision.getD 0 ≠ 0 → r.numericScale.getD 0 ≠ 0 →
    r.numericPrecision.getD 0 ≤ 65 ∧ r.numericScale.getD 0 ≤ 30 ∧
      r.numericScale.getD 0 ≤ r.numericPrecision.getD 0
  passed : r.dataType ∉ pgTypeMap.map Prod.fst → accepts .mysql ⟨r.dataType, r.size⟩

/-- SQLite accepts the types of the table; of any other it must take the name. -/
def ColumnRow.FitsSqlite (accepts : Dialect → ColumnType → Prop) (r : ColumnRow) : Prop :=
  r.dataType ∉ pgTypeMap.map Prod.fst → accepts .sqlite ⟨r.dataType, .unsized⟩

/-- The keys of the table by what MySQL makes of their types. -/
theorem keys_cases : ∀ key ∈ pgTypeMap.map Prod.fst,
    (key ∈ notInMysql ∧ ∃ name ∈ notMysqlNames, pgTypeMap.lookup key = some name) ∨
    key = "varchar" ∨ key = "bpchar" ∨ key = "numeric" ∨
    (key ∉ notInMysql ∧ key ∉ ["varchar", "bpchar"] ∧ key ≠ "numeric" ∧
      ∃ name ∈ mysqlNames, pgTypeMap.lookup key = some name) := by decide

variable {r : ColumnRow}

theorem columnType_known (enumMap : Dict String (List String)) {name : String}
    (h : pgTypeMap.lookup r.dataType = some name) :
    columnType .mysql (columnSchema enumMap r) = ⟨name, r.size⟩ := by
  simp [columnType, columnSchema, h, ColumnRow.size]

theorem accepts_varchar_iff (h : DocumentedTypes accepts) (hr : r.dataType = "varchar") :
    accepts .mysql ⟨"VARCHAR", r.size⟩ ↔
      r.characterMaximumLength.getD 0 ≠ 0 ∧ r.characterMaximumLength.getD 0 ≤ 16383 := by
  have hscale : r.numericScale.getD 0 = 0 := r.scale (by rw [hr]; decide) (by rw [hr]; decide)
  by_cases hzero : r.characterMaximumLength.getD 0 = 0
  · rw [ColumnRow.size, TypeSize.of_unsized hzero hscale]
    exact iff_of_false h.mysql_varchar_unsized fun hset => hset.1 hzero
  · rw [ColumnRow.size, TypeSize.of_length hzero, h.mysql_varchar _ (by omega)]
    exact ⟨fun hle => ⟨hzero, hle⟩, fun hset => hset.2⟩

theorem accepts_char_iff (h : DocumentedTypes accepts) (hr : r.dataType = "bpchar") :
    accepts .mysql ⟨"CHAR", r.size⟩ ↔ r.characterMaximumLength.getD 0 ≤ 255 := by
  have hscale : r.numericScale.getD 0 = 0 := r.scale (by rw [hr]; decide) (by rw [hr]; decide)
  by_cases hzero : r.characterMaximumLength.getD 0 = 0
  · rw [ColumnRow.size, TypeSize.of_unsized hzero hscale]
    exact iff_of_true (h.mysql_has "CHAR" (by decide)) (by omega)
  · rw [ColumnRow.size, TypeSize.of_length hzero]
    exact h.mysql_char _ (by omega)

theorem accepts_numeric_iff (h : DocumentedTypes accepts) (hr : r.dataType = "numeric") :
    accepts .mysql ⟨"NUMERIC", r.size⟩ ↔
      (r.numericPrecision.getD 0 ≠ 0 → r.numericScale.getD 0 ≠ 0 →
        r.numericPrecision.getD 0 ≤ 65 ∧ r.numericScale.getD 0 ≤ 30 ∧
          r.numericScale.getD 0 ≤ r.numericPrecision.getD 0) := by
  have hlength : r.characterMaximumLength = none :=
    r.length (by rw [hr]; decide) (by rw [hr]; decide)
  by_cases hdigits : r.numericPrecision.getD 0 ≠ 0 ∧ r.numericScale.getD 0 ≠ 0
  · obtain ⟨hp, hs⟩ := hdigits
    rw [ColumnRow.size, hlength, TypeSize.of_precision hp hs,
      h.mysql_numeric _ _ (by omega) (by omega)]
    exact ⟨fun hbounds _ _ => hbounds, fun hbounds => hbounds hp hs⟩
  · have hsize : r.size = .unsized := by
      rw [ColumnRow.size, hlength, TypeSize.of, if_neg (by simp), if_neg hdigits]
    rw [hsize]
    exact iff_of_true (h.mysql_has "NUMERIC" (by decide)) fun hp hs => absurd ⟨hp, hs⟩ hdigits

/-- A PostgreSQL column is created in MySQL just when it fits. -/
theorem accepts_mysql_iff (h : DocumentedTypes accepts) (enumMap : Dict String (List String))
    (r : ColumnRow) :
    accepts .mysql (columnType .mysql (columnSchema enumMap r)) ↔ r.FitsMysql accepts := by
  by_cases hkey : r.dataType ∈ pgTypeMap.map Prod.fst
  · have hpassed : r.dataType ∉ pgTypeMap.map Prod.fst → accepts .mysql ⟨r.dataType, r.size⟩ :=
      fun hout => absurd hkey hout
    rcases keys_cases _ hkey with ⟨hin, name, hname, hlookup⟩ | hvarchar | hchar | hnumeric |
      ⟨hin, hchars, hnumeric, name, hname, hlookup⟩
    · rw [columnType_known enumMap hlookup]
      exact iff_of_false (h.mysql_lacks name hname _) fun hfit => hfit.known hin
    · have hlookup : pgTypeMap.lookup r.dataType = some "VARCHAR" := by
        rw [hvarchar]
        decide
      rw [columnType_known enumMap hlookup, accepts_varchar_iff h hvarchar]
      constructor
      · intro hset
        exact ⟨by rw [hvarchar]; decide, fun _ => hset, by simp [hvarchar], by simp [hvarchar],
          hpassed⟩
      · exact fun hfit => hfit.varchar hvarchar
    · have hlookup : pgTypeMap.lookup r.dataType = some "CHAR" := by
        rw [hchar]
        decide
      rw [columnType_known enumMap hlookup, accepts_char_iff h hchar]
      constructor
      · intro hset
        exact ⟨by rw [hchar]; decide, by simp [hchar], fun _ => hset, by simp [hchar], hpassed⟩
      · exact fun hfit => hfit.char hchar
    · have hlookup : pgTypeMap.lookup r.dataType = some "NUMERIC" := by
        rw [hnumeric]
        decide
      rw [columnType_known enumMap hlookup, accepts_numeric_iff h hnumeric]
      constructor
      · intro hset
        exact ⟨by rw [hnumeric]; decide, by simp [hnumeric], by simp [hnumeric], fun _ => hset,
          hpassed⟩
      · exact fun hfit => hfit.numeric hnumeric
    · have hsize : r.size = .unsized := by
        have hlength : r.characterMaximumLength.getD 0 = 0 := by
          rw [r.length hkey hchars]
          rfl
        exact TypeSize.of_unsized hlength (r.scale hkey hnumeric)
      have hvarchar : r.dataType ≠ "varchar" := fun heq => hchars (by simp [heq])
      have hchar : r.dataType ≠ "bpchar" := fun heq => hchars (by simp [heq])
      rw [columnType_known enumMap hlookup, hsize]
      refine iff_of_true (h.mysql_has name hname) ⟨hin, ?_, ?_, ?_, hpassed⟩
      · exact fun heq => absurd heq hvarchar
      · exact fun heq => absurd heq hchar
      · exact fun heq => absurd heq hnumeric
  · have htype : columnType .mysql (columnSchema enumMap r) = ⟨r.dataType, r.size⟩ := by
      simp [columnType, columnSchema, lookup_of_notMem hkey, ColumnRow.size]
    have hother : ∀ key ∈ "varchar" :: "bpchar" :: "numeric" :: notInMysql,
        key ∈ pgTypeMap.map Prod.fst := by decide
    have hne : ∀ key ∈ "varchar" :: "bpchar" :: "numeric" :: notInMysql, r.dataType ≠ key :=
      fun key hmem heq => hkey (heq ▸ hother key hmem)
    rw [htype]
    constructor
    · intro haccepts
      refine ⟨?_, ?_, ?_, ?_, fun _ => haccepts⟩
      · exact fun hin => hne _ (by simp [hin]) rfl
      · exact fun heq => absurd heq (hne _ (by simp))
      · exact fun heq => absurd heq (hne _ (by simp))
      · exact fun heq => absurd heq (hne _ (by simp))
    · exact fun hfit => hfit.passed hkey

end PostgresProvider

namespace SQLiteProvider

/-- The declared type is outside the table of affinities, and is passed on in upper case. -/
def PassedOn (type : String) : Prop :=
  colType type ∉ sqliteAffinityMap.map Prod.fst ∧ type ≠ ""

/-- Keys of the table whose type a dialect does not take without a size. -/
def notIn : Dialect → List String
  | .postgres => ["double", "blob", "datetime"]
  | .mysql => ["varchar", "character"]
  | .sqlite => []

/-- When another dialect accepts the column: it has the type of the table, or the type that is
passed on. -/
structure Fits (accepts : Dialect → ColumnType → Prop) (d : Dialect) (r : TableInfoRow) : Prop where
  known : colType r.type ∉ notIn d
  passed : PassedOn r.type → accepts d ⟨PyText.upper r.type, .unsized⟩

theorem columnType_columnSchema (d : Dialect) (r : TableInfoRow) :
    columnType d (columnSchema r) = ⟨mapped r.type, .unsized⟩ := by
  have hsize : TypeSize.of none none none = .unsized := rfl
  cases d <;> simp only [columnType, columnSchema, hsize, ite_self]

/-- The keys of the table by what the other dialects make of their types. -/
theorem keys_cases : ∀ d ∈ [Dialect.postgres, Dialect.mysql],
    ∀ key ∈ sqliteAffinityMap.map Prod.fst, ∃ name ∈ sqliteAffinityMap.map Prod.snd,
      sqliteAffinityMap.lookup key = some name ∧
      (key ∈ notIn d ∧ (d = .postgres ∧ name ∈ notPostgresNames ∨ d = .mysql ∧ name = "VARCHAR") ∨
        key ∉ notIn d ∧
          (d = .postgres ∧ name ∈ postgresNames ∨ d = .mysql ∧ name ∈ mysqlNames)) := by decide

/-- A SQLite column is created in another database just when it fits. -/
theorem accepts_iff (h : DocumentedTypes accepts) {d : Dialect} (hd : d ≠ .sqlite)
    (r : TableInfoRow) :
    accepts d (columnType d (columnSchema r)) ↔ Fits accepts d r := by
  have hmem : d ∈ [Dialect.postgres, Dialect.mysql] := by
    cases d with
    | sqlite => exact absurd rfl hd
    | _ => decide
  rw [columnType_columnSchema]
  by_cases hkey : colType r.type ∈ sqliteAffinityMap.map Prod.fst
  · obtain ⟨name, -, hlookup, hcases⟩ := keys_cases d hmem _ hkey
    have hmapped : mapped r.type = name := by rw [mapped, hlookup, Option.getD_some]
    rw [hmapped]
    rcases hcases with ⟨hin, hname⟩ | ⟨hin, hname⟩
    · have hrejected : ¬ accepts d ⟨name, .unsized⟩ := by
        rcases hname with ⟨rfl, hname⟩ | ⟨rfl, rfl⟩
        · exact h.postgres_lacks name hname _
        · exact h.mysql_varchar_unsized
      exact iff_of_false hrejected fun hfit => hfit.known hin
    · have haccepted : accepts d ⟨name, .unsized⟩ := by
        rcases hname with ⟨rfl, hname⟩ | ⟨rfl, hname⟩
        · exact h.postgres_has name hname
        · exact h.mysql_has name hname
      exact iff_of_true haccepted ⟨hin, fun hpassed => absurd hkey hpassed.1⟩
  · have hin : colType r.type ∉ notIn d := by
      intro hin
      have hknown : ∀ d, ∀ key ∈ notIn d, key ∈ sqliteAffinityMap.map Prod.fst := by
        intro d
        cases d <;> decide
      exact hkey (hknown d _ hin)
    by_cases hempty : r.type = ""
    · have hmapped : mapped r.type = "TEXT" := by
        rw [hempty]
        decide
      have htext : accepts d ⟨"TEXT", .unsized⟩ := by
        cases d with
        | postgres => exact h.postgres_has _ (by decide)
        | mysql => exact h.mysql_has _ (by decide)
        | sqlite => exact absurd rfl hd
      rw [hmapped]
      exact iff_of_true htext ⟨hin, fun hpassed => absurd hempty hpassed.2⟩
    · have hmapped : mapped r.type = PyText.upper r.type := by
        rw [mapped, lookup_of_notMem hkey, Option.getD_none, if_neg hempty]
      rw [hmapped]
      exact ⟨fun haccepts => ⟨hin, fun _ => haccepts⟩, fun hfit => hfit.passed ⟨hkey, hempty⟩⟩

end SQLiteProvider

/-- A name through a table whose types SQLite accepts: only what is passed on may be refused. -/
theorem accepts_lookup_iff {map : List (String × String)}
    (hmap : ∀ name ∈ map.map Prod.snd, accepts .sqlite ⟨name, .unsized⟩) (key passed : String) :
    accepts .sqlite ⟨(map.lookup key).getD passed, .unsized⟩ ↔
      (key ∉ map.map Prod.fst → accepts .sqlite ⟨passed, .unsized⟩) := by
  by_cases hkey : key ∈ map.map Prod.fst
  · obtain ⟨name, hname, hlookup⟩ := lookup_of_mem hkey
    rw [hlookup]
    exact iff_of_true (hmap name hname) fun hout => absurd hkey hout
  · rw [lookup_of_notMem hkey]
    exact ⟨fun haccepts _ => haccepts, fun hfit => hfit hkey⟩

theorem MySQLProvider.accepts_sqlite_iff (h : DocumentedTypes accepts)
    (r : MySQLProvider.ColumnRow) :
    accepts .sqlite (columnType .sqlite (MySQLProvider.columnSchema r)) ↔ r.FitsSqlite accepts := by
  have hmap : ∀ name ∈ mysqlTypeMap.map Prod.snd, accepts .sqlite ⟨name, .unsized⟩ :=
    fun name hname => h.sqlite_has name (List.mem_append_left _ hname)
  exact accepts_lookup_iff hmap (PyText.lower r.dataType) (PyText.upper r.dataType)

theorem PostgresProvider.accepts_sqlite_iff (h : DocumentedTypes accepts)
    (enumMap : Dict String (List String)) (r : PostgresProvider.ColumnRow) :
    accepts .sqlite (columnType .sqlite (PostgresProvider.columnSchema enumMap r)) ↔
      r.FitsSqlite accepts := by
  have hmap : ∀ name ∈ pgTypeMap.map Prod.snd, accepts .sqlite ⟨name, .unsized⟩ :=
    fun name hname => h.sqlite_has name (List.mem_append_right _ hname)
  exact accepts_lookup_iff hmap r.dataType r.dataType

/-- A table of one of the three databases, as its catalogue shows it to `get_table_schema`. -/
inductive CatalogueTable where
  | postgres (tableName : String) (enumMap : Dict String (List String))
    (rows : List PostgresProvider.ColumnRow) (rowCount : Nat)
  | mysql (tableName : String) (rows : List MySQLProvider.ColumnRow) (rowCount : Nat)
  | sqlite (tableName : String) (info : TableInfo) (rowCount : Nat)

namespace CatalogueTable

def dialect : CatalogueTable → Dialect
  | postgres .. => .postgres
  | mysql .. => .mysql
  | sqlite .. => .sqlite

/-- What `get_table_schema` of its provider returns. -/
def schema : CatalogueTable → TableSchema
  | postgres tableName enumMap rows n => PostgresProvider.tableSchema tableName enumMap rows n
  | mysql tableName rows n => MySQLProvider.tableSchema tableName rows n
  | sqlite tableName info n => SQLiteProvider.tableSchema tableName info.rows n

/-- Every column fits the other database. -/
def Fits (accepts : Dialect → ColumnType → Prop) (d : Dialect) : CatalogueTable → Prop
  | postgres _ _ rows _ => match d with
    | .mysql => ∀ r ∈ rows, r.FitsMysql accepts
    | _ => ∀ r ∈ rows, r.FitsSqlite accepts
  | mysql _ rows _ => match d with
    | .postgres => ∀ r ∈ rows, r.FitsPostgres accepts
    | _ => ∀ r ∈ rows, r.FitsSqlite accepts
  | sqlite _ info _ => ∀ r ∈ info.rows, SQLiteProvider.Fits accepts d r

end CatalogueTable

/-- Every column definition of the statement names a type that the dialect accepts. -/
def AllAccepted (accepts : Dialect → ColumnType → Prop) (d : Dialect) (schema : TableSchema) : Prop :=
  ∀ type ∈ columnTypes d schema, accepts d type

theorem allAccepted_map_iff {Row : Type} {d : Dialect} {columnSchema : Row → ColumnSchema}
    {Fits : Row → Prop} {schema : TableSchema} {rows : List Row}
    (hcolumns : schema.columns = rows.map columnSchema)
    (h : ∀ r, accepts d (columnType d (columnSchema r)) ↔ Fits r) :
    AllAccepted accepts d schema ↔ ∀ r ∈ rows, Fits r := by
  rw [AllAccepted, columnTypes, hcolumns, List.map_map, List.forall_mem_map]
  exact forall₂_congr fun r _ => h r

/-- The table is created in another database with types that it accepts just when every column of
the source fits: nothing translates a type from one dialect to the other. -/
theorem created_types_accepted_iff (h : DocumentedTypes accepts) (t : CatalogueTable) {d : Dialect}
    (hd : d ≠ t.dialect) : AllAccepted accepts d t.schema ↔ t.Fits accepts d := by
  cases t with
  | postgres tableName enumMap rows n =>
    cases d with
    | postgres => exact absurd rfl hd
    | mysql => exact allAccepted_map_iff rfl (PostgresProvider.accepts_mysql_iff h enumMap)
    | sqlite => exact allAccepted_map_iff rfl (PostgresProvider.accepts_sqlite_iff h enumMap)
  | mysql tableName rows n =>
    cases d with
    | postgres => exact allAccepted_map_iff rfl (MySQLProvider.accepts_postgres_iff h)
    | mysql => exact absurd rfl hd
    | sqlite => exact allAccepted_map_iff rfl (MySQLProvider.accepts_sqlite_iff h)
  | sqlite tableName info n => exact allAccepted_map_iff rfl (SQLiteProvider.accepts_iff h hd)

/-- The types of the manuals, with no others. -/
def manualTypes (d : Dialect) (t : ColumnType) : Bool :=
  match d, t.size with
  | .postgres, .unsized => t.name ∈ postgresNames
  | .postgres, .length n => t.name ∈ ["CHAR", "VARCHAR"] ∧ n ≤ 10485760
  | .postgres, .precision p s => t.name = "DECIMAL" ∧ s ≤ p ∧ p ≤ 1000
  | .mysql, .unsized => t.name ∈ mysqlNames
  | .mysql, .length n => t.name = "VARCHAR" ∧ n ≤ 16383 ∨ t.name = "CHAR" ∧ n ≤ 255
  | .mysql, .precision p s => t.name = "NUMERIC" ∧ p ≤ 65 ∧ s ≤ 30 ∧ s ≤ p
  | .sqlite, .unsized => t.name ∈ MySQLProvider.mysqlTypeMap.map Prod.snd ++
      PostgresProvider.pgTypeMap.map Prod.snd
  | .sqlite, _ => false

theorem documentedTypes_manual : DocumentedTypes fun d t => manualTypes d t where
  postgres_has name hname := decide_eq_true hname
  postgres_chars name hname n _ hn := decide_eq_true ⟨hname, hn⟩
  postgres_decimal p s _ hs hp := decide_eq_true ⟨rfl, hs, hp⟩
  postgres_float p s := by simp [manualTypes]
  postgres_text n := by simp [manualTypes]
  postgres_lacks := by
    intro name hname size
    cases size with
    | unsized =>
      have hlacks : ∀ name ∈ notPostgresNames, manualTypes .postgres ⟨name, .unsized⟩ = false := by
        decide
      simp [hlacks name hname]
    | length n =>
      have hlacks : ∀ name ∈ notPostgresNames, name ∉ ["CHAR", "VARCHAR"] := by decide
      simp only [manualTypes, decide_eq_true_eq]
      exact fun h => hlacks name hname h.1
    | precision p s =>
      have hlacks : ∀ name ∈ notPostgresNames, name ≠ "DECIMAL" := by decide
      simp only [manualTypes, decide_eq_true_eq]
      exact fun h => hlacks name hname h.1
  mysql_has name hname := decide_eq_true hname
  mysql_varchar n _ := by simp [manualTypes]
  mysql_varchar_unsized := by decide
  mysql_char n _ := by simp [manualTypes]
  mysql_numeric p s _ _ := by simp [manualTypes]
  mysql_lacks := by
    intro name hname size
    cases size with
    | unsized =>
      have hlacks : ∀ name ∈ notMysqlNames, manualTypes .mysql ⟨name, .unsized⟩ = false := by decide
      simp [hlacks name hname]
    | length n =>
      have hlacks : ∀ name ∈ notMysqlNames, name ≠ "VARCHAR" ∧ name ≠ "CHAR" := by decide
      simp only [manualTypes, decide_eq_true_eq]
      intro h
      rcases h with h | h
      · exact (hlacks name hname).1 h.1
      · exact (hlacks name hname).2 h.1
    | precision p s =>
      have hlacks : ∀ name ∈ notMysqlNames, name ≠ "NUMERIC" := by decide
      simp only [manualTypes, decide_eq_true_eq]
      exact fun h => hlacks name hname h.1
  sqlite_has name hname := decide_eq_true hname

/-- A MySQL table with a FLOAT column that is declared with digits, and one without. -/
private def readings : CatalogueTable :=
  .mysql "readings"
    [{ columnName := "celsius", dataType := "float", isNullable := "YES", columnDefault := none
       characterMaximumLength := none, numericPrecision := some 12, numericScale := none
       columnKey := "", plain := by decide, chars := by decide, text := by decide
       float := by decide, decimal := by decide },
      { columnName := "lux", dataType := "float", isNullable := "YES", columnDefault := none
        characterMaximumLength := none, numericPrecision := some 7, numericScale := some 2
        columnKey := "", plain := by decide, chars := by decide, text := by decide
        float := by decide, decimal := by decide }] 0

theorem created_types_accepted_iff_readings :
    AllAccepted (fun d t => manualTypes d t) .postgres readings.schema ↔
      readings.Fits (fun d t => manualTypes d t) .postgres :=
  created_types_accepted_iff documentedTypes_manual readings (by decide)

/-- MySQL's TINYINT, PostgreSQL's uuid, and SQLite's double and varchar. -/
private def flags : CatalogueTable :=
  .mysql "flags"
    [{ columnName := "active", dataType := "tinyint", isNullable := "NO", columnDefault := none
       characterMaximumLength := none, numericPrecision := some 3, numericScale := some 0
       columnKey := "", plain := by decide, chars := by decide, text := by decide
       float := by decide, decimal := by decide }] 0

private def tokens : CatalogueTable :=
  .postgres "tokens" Dict.empty
    [{ columnName := "token", dataType := "uuid", isNullable := "NO", columnDefault := none
       characterMaximumLength := none, numericPrecision := none, numericScale := none, isPk := true
       length := by decide, scale := by decide }] 0

private def samples : CatalogueTable :=
  .sqlite "samples" ⟨[⟨"x", "double", false, none, 0⟩, ⟨"label", "varchar(20)", false, none, 0⟩],
    by decide⟩ 0

/-- Of the six ordered pairs, the four whose destination is not SQLite: each has a table of a type
of its own that cannot be created. -/
theorem untranslated_types_rejected :
    ¬ AllAccepted (fun d t => manualTypes d t) .postgres flags.schema ∧
    ¬ AllAccepted (fun d t => manualTypes d t) .mysql tokens.schema ∧
    ¬ AllAccepted (fun d t => manualTypes d t) .postgres samples.schema ∧
    ¬ AllAccepted (fun d t => manualTypes d t) .mysql samples.schema := by
  have hflags : columnTypes .postgres flags.schema = [⟨"TINYINT", .unsized⟩] := by decide
  have htokens : columnTypes .mysql tokens.schema = [⟨"UUID", .unsized⟩] := by decide
  have hsamples : ∀ d, columnTypes d samples.schema =
      [⟨"DOUBLE", .unsized⟩, ⟨"VARCHAR", .unsized⟩] := by
    intro d
    cases d <;> decide
  unfold AllAccepted
  rw [hflags, htokens, hsamples, hsamples]
  decide

end DataBridge
