import DataBridge.Migration.Mapper

namespace DataBridge

def numericTypes : List String :=
  ["INTEGER", "SMALLINT", "BIGINT", "FLOAT", "DOUBLE", "DECIMAL", "NUMERIC"]
def stringTypes : List String := ["CHAR", "VARCHAR", "TEXT", "NCHAR", "NVARCHAR", "NTEXT"]
def dateTypes : List String := ["DATE", "TIME", "DATETIME", "TIMESTAMP", "TIMETZ", "TIMESTAMPTZ"]
def booleanTypes : List String := ["BOOLEAN", "BOOL", "BIT"]
def binaryTypes : List String := ["BLOB", "BYTEA", "BINARY", "VARBINARY"]
def jsonTypes : List String := ["JSON", "JSONB"]

def typeFamilies : List (List String) :=
  [numericTypes, stringTypes, dateTypes, booleanTypes, binaryTypes, jsonTypes]

/-- The index of the family of a type; `none` where the source returns -1. -/
def family (dtype : String) : Option Nat :=
  let upper := PyText.before '(' (PyText.upper dtype)
  typeFamilies.findIdx? fun fam => upper ∈ fam

/-- Truth of an optional integer: set and not zero. -/
def truthy (n : Option Nat) : Bool := n.getD 0 ≠ 0

def noColumnsError (source : TableSchema) : Exc :=
  ⟨.schemaCompatibilityError, s!"Table '{source.name}' has no columns — cannot migrate."⟩

def familyError (source : TableSchema) (col dcol : ColumnSchema) : Exc :=
  ⟨.schemaCompatibilityError,
    s!"Incompatible type families for column '{col.name}' in table " ++
      s!"'{source.name}': source={col.dataType}, destination={dcol.dataType}."⟩

def notNullError (destination : TableSchema) (destColName : String) : Exc :=
  ⟨.schemaCompatibilityError,
    s!"Destination column '{destColName}' in table '{destination.name}' " ++
      "is NOT NULL with no default but has no matching source column."⟩

def skippedWarning (source : TableSchema) (col : ColumnSchema) : String :=
  s!"Column '{col.name}' in source table '{source.name}' " ++
    "does not exist in destination — it will be skipped."

def lengthWarning (col dcol : ColumnSchema) : String :=
  s!"Column '{col.name}': source max_length ({col.maxLength.getD 0}) " ++
    s!"exceeds destination ({dcol.maxLength.getD 0}) — data may be truncated."

def unmatchedWarning (destination : TableSchema) (destColName : String) : String :=
  s!"Column '{destColName}' in destination table '{destination.name}' " ++
    "has no matching source column — it will receive NULL / default values."

/-- The check of one source column. The nullability test of the source has `pass` for its body,
so nullability decides nothing here. -/
def checkSourceColumn (source : TableSchema) (destCols : Dict String ColumnSchema)
    (warnings : List String) (col : ColumnSchema) : Except Exc (List String) :=
  match destCols.get? col.name with
  | none => .ok (warnings ++ [skippedWarning source col])
  | some dcol =>
    let srcFam := family col.dataType
    let dstFam := family dcol.dataType
    if srcFam ≠ none ∧ dstFam ≠ none ∧ srcFam ≠ dstFam then .error (familyError source col dcol)
    else if truthy dcol.maxLength ∧ truthy col.maxLength ∧
        col.maxLength.getD 0 > dcol.maxLength.getD 0 then
      .ok (warnings ++ [lengthWarning col dcol])
    else .ok warnings

/-- The check of one destination column that has no source column. -/
def checkDestColumn (destination : TableSchema) (srcCols : Dict String ColumnSchema)
    (warnings : List String) (entry : String × ColumnSchema) : Except Exc (List String) :=
  if entry.1 ∈ srcCols.keys then .ok warnings
  else if !entry.2.isNullable ∧ entry.2.default = none then
    .error (notNullError destination entry.1)
  else .ok (warnings ++ [unmatchedWarning destination entry.1])

def validateSchemaCompatibility (source : TableSchema) (destination : Option TableSchema) :
    Except Exc (List String) :=
  if source.columns = [] then .error (noColumnsError source)
  else match destination with
    | none => .ok []
    | some dest => do
      let destCols := columnsByName dest.columns
      let srcCols := columnsByName source.columns
      let warnings ← source.columns.foldlM (checkSourceColumn source destCols) []
      destCols.entries.foldlM (checkDestColumn dest srcCols) warnings

end DataBridge
