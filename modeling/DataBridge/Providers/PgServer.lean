import DataBridge.Framework.ExceptList
import DataBridge.Providers.CrossDatabase

namespace DataBridge.PostgresProvider

/-- The statements that `create_table` executes. -/
inductive PgStatement where
  | ensureEnum (typname : String) (labels : List String)
  | createTable (schema : TableSchema)

/-- The enum type of a column, where it has one. -/
def enumStatement (col : ColumnSchema) : Option PgStatement :=
  col.enumValues.map (.ensureEnum col.dataType)

def statements (schema : TableSchema) : List PgStatement :=
  schema.columns.filterMap enumStatement ++ [.createTable schema]

def PgStatement.text : PgStatement → String
  | .ensureEnum typname labels =>
    let list := PyText.commaJoin (labels.map fun v => s!"'{v}'")
    "DO $$ BEGIN " ++
      s!"  IF NOT EXISTS (SELECT 1 FROM pg_type WHERE typname = '{typname}') THEN " ++
      s!"    CREATE TYPE {typname} AS ENUM ({list}); " ++
      "  END IF; " ++
      "END $$"
  | .createTable schema =>
    let pkClause := if schema.primaryKeys = [] then "" else
      s!", PRIMARY KEY ({PyText.commaJoin (schema.primaryKeys.map Dialect.postgres.quote)})"
    s!"CREATE TABLE IF NOT EXISTS {Dialect.postgres.quote schema.name} " ++
      s!"({PyText.commaJoin (schema.columns.map columnDef)}{pkClause})"

theorem statements_text (schema : TableSchema) :
    (statements schema).map PgStatement.text = createTableTexts schema := by
  have henum : ∀ col : ColumnSchema,
      (enumStatement col).map PgStatement.text = createTypeText col := by
    intro col
    unfold enumStatement createTypeText
    cases col.enumValues <;> rfl
  have henums : (schema.columns.filterMap enumStatement).map PgStatement.text =
      schema.columns.filterMap createTypeText := by
    rw [List.map_filterMap]
    exact congrFun (congrArg List.filterMap (funext henum)) schema.columns
  unfold statements createTableTexts
  rw [List.map_append, henums]
  rfl

/-- What PostgreSQL knows before anything is created: the words that are no name unless quoted, the
type names in the catalogue of an empty database, and the types of column definitions there. -/
structure PgRules (R : Type) where
  reserved : List String
  builtin : List String
  resolve : ColumnType → Option R

inductive PgType (R : Type) where
  | builtin (type : R)
  | enum (name : String)
  | array (name : String)
  | row (table : String)
  deriving DecidableEq

structure PgColumn (R : Type) where
  name : String
  type : PgType R
  notNull : Bool
  deriving DecidableEq

structure PgTable (R : Type) where
  columns : List (PgColumn R)
  primaryKeys : List String
  deriving DecidableEq

/-- A database: the enum types, the tables, and the indexes of their primary keys. -/
structure PgDatabase (R : Type) where
  enums : Dict String (List String) := Dict.empty
  tables : Dict String (PgTable R) := Dict.empty
  indexes : List String := []

/-- As much of a name as fits into so many bytes. -/
def clip : (bytes : Nat) → List Char → List Char
  | _, [] => []
  | bytes, c :: cs => if c.utf8Size ≤ bytes then c :: clip (bytes - c.utf8Size) cs else []

/-- The names that PostgreSQL tries for the index of a table's primary key, one after the other; a
name has at most 63 bytes. -/
def keyIndexName (table : String) (n : Nat) : String :=
  let label := "_pkey".toList ++ if n = 0 then [] else Nat.toDigits 10 n
  String.ofList (clip (63 - label.length) table.toList ++ label)

/-- Only the first name has no number at its end. -/
theorem keyIndexName_succ_ne (s t : String) (n : Nat) :
    keyIndexName s (n + 1) ≠ keyIndexName t 0 := by
  intro heq
  have hdigits : Nat.toDigits 10 (n + 1) ≠ [] := by
    rw [Ne, ← List.length_eq_zero_iff]
    have hpos := Nat.length_toDigits_pos (b := 10) (n := n + 1)
    omega
  have hleft : (keyIndexName s (n + 1)).toList.getLast? =
      some ((Nat.toDigits 10 (n + 1)).getLast hdigits) := by
    rw [keyIndexName, String.toList_ofList, if_neg (Nat.succ_ne_zero n), ← List.append_assoc,
      List.getLast?_append_of_ne_nil _ hdigits, List.getLast?_eq_some_getLast hdigits]
  have hright : (keyIndexName t 0).toList.getLast? = some 'y' := by
    rw [keyIndexName, String.toList_ofList, if_pos rfl, List.append_nil,
      List.getLast?_append_of_ne_nil _ (by decide)]
    rfl
  rw [heq, hright] at hleft
  have hdigit := Nat.isDigit_of_mem_toDigits (b := 10) (by decide) (by decide)
    (List.getLast_mem hdigits)
  rw [← Option.some.inj hleft] at hdigit
  exact absurd hdigit (by decide)

/-- The number of the first name for the index of a table that is not the name of a relation. -/
def freeIndex (relations : List String) (table : String) : Nat :=
  ((List.range (relations.length + 1)).find? fun n => keyIndexName table n ∉ relations).getD
    (relations.length + 1)

theorem freeIndex_eq_zero {relations : List String} {table : String}
    (h : keyIndexName table 0 ∉ relations) : freeIndex relations table = 0 := by
  have hfirst : decide (keyIndexName table 0 ∉ relations) = true := decide_eq_true h
  rw [freeIndex, List.range_succ_eq_map, List.find?_cons, hfirst]
  rfl

/-- The names of tables and indexes, which share one space. -/
def PgDatabase.relations {R : Type} (db : PgDatabase R) : List String := db.tables.keys ++ db.indexes

def isNameStart (c : Char) : Bool := c.isAlpha || c = '_' || 128 ≤ c.toNat

def isNameChar (c : Char) : Bool := isNameStart c || c.isDigit || c = '$'

/-- An unquoted name in lower case; only the letters of ASCII are folded. -/
def foldCase (s : String) : String := String.ofList (s.toList.map Char.toLower)

/-- A pair of dollar signs, which would end the body of the DO statement. -/
def hasDollars : List Char → Bool
  | '$' :: '$' :: _ => true
  | _ :: rest => hasDollars rest
  | [] => false

def readableLabel (label : String) : Bool :=
  !label.toList.contains '\u0027' && !hasDollars label.toList

/-- The name of the type that an array of these has. -/
def arrayName (name : String) : String := String.ofList (clip 63 ('_' :: name.toList))

namespace PgRules

variable {R : Type} (rules : PgRules R)

/-- The name that an unquoted text stands for; `none` if it is not one plain name. -/
def reads (s : String) : Option String :=
  match s.toList with
  | [] => none
  | c :: cs =>
    if isNameStart c ∧ cs.all isNameChar ∧ ¬ hasDollars s.toList ∧ foldCase s ∉ rules.reserved then
      some (foldCase s)
    else none

/-- Every `typname` in the catalogue: each table has a type for its rows, and each type one for its
arrays, which is named by an underscore unless that name is taken. -/
def typnames (db : PgDatabase R) : List String :=
  rules.builtin ++ db.enums.keys ++ db.tables.keys ++ (db.enums.keys ++ db.tables.keys).map arrayName

/-- The type of a column definition, where these enum types and tables exist. -/
def typeOf (enums tables : List String) (t : ColumnType) : Option (PgType R) :=
  match rules.resolve t with
  | some type => some (.builtin type)
  | none =>
    if t.size = .unsized then
      match rules.reads t.name with
      | none => none
      | some name =>
        if name ∈ enums then some (.enum name)
        else if name ∈ enums.map arrayName then some (.array name)
        else if name ∈ tables then some (.row name)
        else none
    else none

def column (enums tables : List String) (col : ColumnSchema) : Option (PgColumn R) :=
  (rules.typeOf enums tables (columnType .postgres col)).map fun type =>
    { name := col.name, type := type, notNull := !col.isNullable }

/-- The effect of a statement, or the error it raises. A name or a label that ends the text it stands
in is taken for an error. -/
def execute (db : PgDatabase R) : PgStatement → Except String (PgDatabase R)
  | .ensureEnum typname labels =>
    match rules.reads typname with
    | none => .error "syntax error"
    | some name =>
      if ¬ labels.all readableLabel then .error "syntax error"
      else if typname ∈ rules.typnames db then .ok db
      else if name ∈ db.enums.keys ∨ name ∈ db.tables.keys then
        .error s!"type \"{name}\" already exists"
      else .ok { db with enums := db.enums.set name labels }
  | .createTable schema =>
    if schema.name ∈ db.relations then .ok db
    else if ¬ (schema.columns.map (·.name)).Nodup then .error "column specified more than once"
    else if schema.name ∈ db.enums.keys then .error s!"type \"{schema.name}\" already exists"
    else
      match schema.columns.mapM (rules.column db.enums.keys db.tables.keys) with
      | none => .error "type does not exist"
      | some columns =>
        .ok { db with
          tables := db.tables.set schema.name ⟨columns, schema.primaryKeys⟩
          indexes := if schema.primaryKeys = [] then db.indexes
            else db.indexes ++
              [keyIndexName schema.name (freeIndex (schema.name :: db.relations) schema.name)] }

/-- `create_table`. -/
def createTable (db : PgDatabase R) (schema : TableSchema) : Except String (PgDatabase R) :=
  (statements schema).foldlM rules.execute db

/-- The calls of `create_table`, one after the other, on an empty database. -/
def createTables (schemas : List TableSchema) : Except String (PgDatabase R) :=
  schemas.foldlM rules.createTable {}

end PgRules

end DataBridge.PostgresProvider
