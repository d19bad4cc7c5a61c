import DataBridge.Providers.SqliteSchema

namespace DataBridge

/-- The size that a column definition names after its type. -/
inductive TypeSize where
  | unsized
  | length (n : Nat)
  | precision (p s : Nat)
  deriving DecidableEq, Repr

def TypeSize.text : TypeSize → String
  | .unsized => ""
  | .length n => s!"({n})"
  | .precision p s => s!"({p},{s})"

/-- A length that is set, else a precision and a scale that are both set; 0 counts as not set. -/
def TypeSize.of (maxLength precision scale : Option Nat) : TypeSize :=
  if maxLength.getD 0 ≠ 0 then .length (maxLength.getD 0)
  else if precision.getD 0 ≠ 0 ∧ scale.getD 0 ≠ 0 then .precision (precision.getD 0) (scale.getD 0)
  else .unsized

/-- The type of a column definition. -/
structure ColumnType where
  name : String
  size : TypeSize
  deriving DecidableEq, Repr

def ColumnType.text (t : ColumnType) : String := t.name ++ t.size.text

/-- The type that `create_table` of a provider writes for a column. -/
def columnType (d : Dialect) (col : ColumnSchema) : ColumnType :=
  let size := TypeSize.of col.maxLength col.precision col.scale
  match d with
  | .mysql => ⟨col.dataType, size⟩
  | .postgres => ⟨col.dataType, if col.enumValues = none then size else .unsized⟩
  | .sqlite => ⟨col.dataType, .unsized⟩

/-- The types in the column definitions of the statement, in order. -/
def columnTypes (d : Dialect) (schema : TableSchema) : List ColumnType :=
  schema.columns.map (columnType d)

namespace MySQLProvider

def mysqlTypeMap : List (String × String) :=
  [("tinyint", "TINYINT"), ("smallint", "SMALLINT"), ("mediumint", "MEDIUMINT"), ("int", "INT"),
    ("bigint", "BIGINT"), ("float", "FLOAT"), ("double", "DOUBLE"), ("decimal", "DECIMAL"),
    ("numeric", "DECIMAL"), ("char", "CHAR"), ("varchar", "VARCHAR"), ("tinytext", "TINYTEXT"),
    ("text", "TEXT"), ("mediumtext", "MEDIUMTEXT"), ("longtext", "LONGTEXT"),
    ("tinyblob", "TINYBLOB"), ("blob", "BLOB"), ("mediumblob", "MEDIUMBLOB"),
    ("longblob", "LONGBLOB"), ("date", "DATE"), ("time", "TIME"), ("datetime", "DATETIME"),
    ("timestamp", "TIMESTAMP"), ("year", "YEAR"), ("bool", "BOOLEAN"), ("boolean", "BOOLEAN"),
    ("bit", "BIT"), ("json", "JSON"), ("enum", "VARCHAR"), ("set", "VARCHAR")]

/-- A row of `information_schema.COLUMNS` with the columns the provider selects, and what MySQL
reports there of its own types. -/
structure ColumnRow where
  columnName : String
  dataType : String
  isNullable : String
  columnDefault : Option String
  characterMaximumLength : Option Nat
  numericPrecision : Option Nat
  numericScale : Option Nat
  columnKey : String
  plain : PyText.lower dataType ∈ ["tinyint", "smallint", "mediumint", "int", "bigint", "bool",
    "boolean", "bit", "date", "time", "datetime", "timestamp", "year", "json"] →
    characterMaximumLength = none ∧ numericScale.getD 0 = 0
  chars : PyText.lower dataType ∈ ["char", "varchar", "enum", "set"] →
    characterMaximumLength.getD 0 ≤ 65535 ∧ numericScale = none
  text : PyText.lower dataType = "text" → characterMaximumLength.getD 0 ≠ 0
  float : PyText.lower dataType = "float" → characterMaximumLength = none
  decimal : PyText.lower dataType ∈ ["decimal", "numeric"] → characterMaximumLength = none ∧
    numericPrecision.getD 0 ≤ 65 ∧ numericScale.getD 0 ≤ numericPrecision.getD 0

def columnSchema (r : ColumnRow) : ColumnSchema where
  name := r.columnName
  dataType := (mysqlTypeMap.lookup (PyText.lower r.dataType)).getD (PyText.upper r.dataType)
  isNullable := r.isNullable = "YES"
  isPrimaryKey := r.columnKey = "PRI"
  default := r.columnDefault
  maxLength := r.characterMaximumLength
  precision := r.numericPrecision
  scale := r.numericScale

/-- `get_table_schema`, from the rows of the catalogue and the row count. -/
def tableSchema (tableName : String) (rows : List ColumnRow) (rowCount : Nat) : TableSchema where
  name := tableName
  columns := rows.map columnSchema
  primaryKeys := ((rows.map columnSchema).filter (·.isPrimaryKey)).map (·.name)
  rowCount := rowCount

def columnDef (col : ColumnSchema) : String :=
  let nullClause := if col.isNullable then "" else " NOT NULL"
  s!"{Dialect.mysql.quote col.name} {(columnType .mysql col).text}{nullClause}"

/-- The statement of `create_table`. -/
def createTableText (schema : TableSchema) : String :=
  let pkClause := if schema.primaryKeys = [] then "" else
    s!", PRIMARY KEY ({PyText.commaJoin (schema.primaryKeys.map Dialect.mysql.quote)})"
  s!"CREATE TABLE IF NOT EXISTS {Dialect.mysql.quote schema.name} " ++
    s!"({PyText.commaJoin (schema.columns.map columnDef)}{pkClause}) " ++
    "ENGINE=InnoDB DEFAULT CHARSET=utf8mb4"

end MySQLProvider

namespace PostgresProvider

def pgTypeMap : List (String × String) :=
  [("int2", "SMALLINT"), ("int4", "INTEGER"), ("int8", "BIGINT"), ("float4", "FLOAT"),
    ("float8", "DOUBLE PRECISION"), ("numeric", "NUMERIC"), ("bool", "BOOLEAN"), ("text", "TEXT"),
    ("varchar", "VARCHAR"), ("bpchar", "CHAR"), ("bytea", "BYTEA"), ("date", "DATE"),
    ("time", "TIME"), ("timetz", "TIMETZ"), ("timestamp", "TIMESTAMP"),
    ("timestamptz", "TIMESTAMPTZ"), ("interval", "INTERVAL"), ("uuid", "UUID"), ("json", "JSON"),
    ("jsonb", "JSONB"), ("array", "TEXT")]

/-- A row of the column query, whose `data_type` is the `udt_name` of the catalogue, and what
PostgreSQL reports there of its own types. -/
structure ColumnRow where
  columnName : String
  dataType : String
  isNullable : String
  columnDefault : Option String
  characterMaximumLength : Option Nat
  numericPrecision : Option Nat
  numericScale : Option Nat
  isPk : Bool
  length : dataType ∈ pgTypeMap.map Prod.fst → dataType ∉ ["varchar", "bpchar"] →
    characterMaximumLength = none
  scale : dataType ∈ pgTypeMap.map Prod.fst → dataType ≠ "numeric" → numericScale.getD 0 = 0

def columnSchema (enumMap : Dict String (List String)) (r : ColumnRow) : ColumnSchema where
  name := r.columnName
  dataType := (pgTypeMap.lookup r.dataType).getD r.dataType
  isNullable := r.isNullable = "YES"
  isPrimaryKey := r.isPk
  default := r.columnDefault
  maxLength := r.characterMaximumLength
  precision := r.numericPrecision
  scale := r.numericScale
  enumValues := enumMap.get? r.dataType

/-- `get_table_schema`, from the rows of the two catalogue queries and the row count. -/
def tableSchema (tableName : String) (enumMap : Dict String (List String)) (rows : List ColumnRow)
    (rowCount : Nat) : TableSchema where
  name := tableName
  columns := rows.map (columnSchema enumMap)
  primaryKeys := ((rows.map (columnSchema enumMap)).filter (·.isPrimaryKey)).map (·.name)
  rowCount := rowCount

/-- The statement that makes the enum type of a column, where it has one. -/
def createTypeText (col : ColumnSchema) : Option String :=
  col.enumValues.map fun values =>
    let labels := PyText.commaJoin (values.map fun v => s!"'{v}'")
    "DO $$ BEGIN " ++
      s!"  IF NOT EXISTS (SELECT 1 FROM pg_type WHERE typname = '{col.dataType}') THEN " ++
      s!"    CREATE TYPE {col.dataType} AS ENUM ({labels}); " ++
      "  END IF; " ++
      "END $$"

def columnDef (col : ColumnSchema) : String :=
  let nullClause := if col.isNullable then "" else " NOT NULL"
  s!"{Dialect.postgres.quote col.name} {(columnType .postgres col).text}{nullClause}"

/-- The statements of `create_table`: the enum types, and the table. -/
def createTableTexts (schema : TableSchema) : List String :=
  let pkClause := if schema.primaryKeys = [] then "" else
    s!", PRIMARY KEY ({PyText.commaJoin (schema.primaryKeys.map Dialect.postgres.quote)})"
  schema.columns.filterMap createTypeText ++
    [s!"CREATE TABLE IF NOT EXISTS {Dialect.postgres.quote schema.name} " ++
      s!"({PyText.commaJoin (schema.columns.map columnDef)}{pkClause})"]

end PostgresProvider

end DataBridge
