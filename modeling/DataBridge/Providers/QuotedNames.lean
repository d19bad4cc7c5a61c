import DataBridge.Framework.SqlLexer
import DataBridge.Providers.TableStatements

namespace DataBridge

open SqlLexer (AllNames Atom After Clean Rules Separated Token intended lex render)

/-! ## The quoting rules -/

def Dialect.quoteChar : Dialect → Char
  | .mysql => '`'
  | .postgres | .sqlite => '"'

/-- Single quotes enclose literals in every dialect; the other marks enclose identifiers, and
literals too where a dialect has it so. -/
def Dialect.rules (d : Dialect) : Rules where
  isQuote c := c = '\'' || c = '"' || (c = '`' && decide (d ≠ .postgres))
  dollar := d = .postgres
  delimits c hc := by
    have hquote : c = '\'' ∨ c = '"' ∨ c = '`' := by
      simp only [Bool.or_eq_true, Bool.and_eq_true, decide_eq_true_eq] at hc
      tauto
    rcases hquote with rfl | rfl | rfl <;> decide

/-- A text without quotes and dollar signs. -/
def plainText (s : String) : Bool := s.toList.all fun c => c ∉ ['\'', '"', '`', '$']

theorem isQuote_of_plain {c : Char} (h : c ∉ ['\'', '"', '`', '$']) (d : Dialect) :
    d.rules.isQuote c = false := by
  simp only [List.mem_cons, List.not_mem_nil, or_false, not_or] at h
  simp [Dialect.rules, h.1, h.2.1, h.2.2.1]

theorem isQuote_quoteChar (d : Dialect) : d.rules.isQuote d.quoteChar = true := by
  cases d <;> decide

/-! ## The statements with their names apart -/

def fixed (s : String) : List Atom := s.toList.map .char

def Dialect.name (d : Dialect) (s : String) : List Atom := [.name d.quoteChar s.toList]

def literal (s : String) : List Atom := [.name '\'' s.toList]

def joined (parts : List (List Atom)) : List Atom := (fixed ", ").intercalate parts

def Select.atoms (q : Select) (d : Dialect) : List Atom :=
  let cols := match q.columns with
    | none | some [] => fixed "*"
    | some cs => joined (cs.map d.name)
  fixed "SELECT " ++ cols ++ fixed " FROM " ++ d.name q.table ++ fixed " LIMIT " ++
    fixed (d.placeholder 0) ++ fixed " OFFSET " ++ fixed (d.placeholder 1)

def Insert.atoms (q : Insert) (d : Dialect) : List Atom :=
  let verb := match d with
    | .postgres => "INSERT INTO "
    | .mysql => "INSERT IGNORE INTO "
    | .sqlite => "INSERT OR IGNORE INTO "
  let conflict := match d with
    | .postgres => ") ON CONFLICT DO NOTHING"
    | .mysql | .sqlite => ")"
  fixed verb ++ d.name q.table ++ fixed " (" ++ joined (q.columns.map d.name) ++
    fixed ") VALUES (" ++
    joined ((List.range q.columns.length).map fun i => fixed (d.placeholder i)) ++ fixed conflict

def truncateAtoms (d : Dialect) (table : String) : List Atom :=
  match d with
  | .postgres => fixed "TRUNCATE TABLE " ++ d.name table ++ fixed " RESTART IDENTITY CASCADE"
  | .mysql => fixed "TRUNCATE TABLE " ++ d.name table
  | .sqlite => fixed "DELETE FROM " ++ d.name table

/-- The query of `get_row_count` that names the table; the estimate of PostgreSQL has the name for a
parameter. -/
def rowCountText (d : Dialect) (table : String) : String :=
  match d with
  | .mysql => s!"SELECT COUNT(*) AS n FROM {d.quote table}"
  | .postgres | .sqlite => s!"SELECT COUNT(*) FROM {d.quote table}"

def rowCountAtoms (d : Dialect) (table : String) : List Atom :=
  match d with
  | .mysql => fixed "SELECT COUNT(*) AS n FROM " ++ d.name table
  | .postgres | .sqlite => fixed "SELECT COUNT(*) FROM " ++ d.name table

/-- The statement of SQLite's `create_table`. -/
def SQLiteProvider.createTableText (schema : TableSchema) : String :=
  s!"CREATE TABLE IF NOT EXISTS {Dialect.sqlite.quote schema.name} " ++
    s!"({SQLiteProvider.tableDefinition schema})"

/-- What follows the name in a column definition. -/
def columnClauses (d : Dialect) (schema : TableSchema) (col : ColumnSchema) : String :=
  let nullClause := if col.isNullable then "" else " NOT NULL"
  let pkClause := if d = .sqlite ∧ col.isPrimaryKey ∧ schema.primaryKeys.length = 1 then
    " PRIMARY KEY" else ""
  " " ++ (columnType d col).text ++ nullClause ++ pkClause

/-- The columns of the `PRIMARY KEY` clause; SQLite writes a single one behind its column. -/
def keyClause (d : Dialect) (schema : TableSchema) : List String :=
  if d = .sqlite ∧ schema.primaryKeys.length ≤ 1 then [] else schema.primaryKeys

def keyAtoms (d : Dialect) (key : List String) : List Atom :=
  if key = [] then [] else fixed ", PRIMARY KEY (" ++ joined (key.map d.name) ++ fixed ")"

def createTableAtoms (d : Dialect) (schema : TableSchema) : List Atom :=
  let options := match d with
    | .mysql => ") ENGINE=InnoDB DEFAULT CHARSET=utf8mb4"
    | .postgres | .sqlite => ")"
  fixed "CREATE TABLE IF NOT EXISTS " ++ d.name schema.name ++ fixed " (" ++
    joined (schema.columns.map fun col => d.name col.name ++ fixed (columnClauses d schema col)) ++
    keyAtoms d (keyClause d schema) ++ fixed options

/-- The block between the dollar signs that makes an enum type. -/
def createTypeAtoms (typeName : String) (labels : List String) : List Atom :=
  fixed " BEGIN " ++ fixed "  IF NOT EXISTS (SELECT 1 FROM pg_type WHERE typname = " ++
    literal typeName ++ fixed ") THEN " ++ fixed "    CREATE TYPE " ++ fixed typeName ++
    fixed " AS ENUM (" ++ joined (labels.map literal) ++ fixed "); " ++ fixed "  END IF; " ++
    fixed "END "

/-! ## Their texts -/

theorem render_append (as bs : List Atom) : render (as ++ bs) = render as ++ render bs :=
  List.flatMap_append

theorem render_fixed (s : String) : render (fixed s) = s.toList := by
  simp [render, fixed, List.flatMap_map]

theorem render_name (d : Dialect) (s : String) : render (d.name s) = (d.quote s).toList := by
  cases d <;> simp [render, Dialect.name, Dialect.quote, Dialect.quoteChar, toString]

theorem render_literal (s : String) : render (literal s) = s!"'{s}'".toList := by
  simp [render, literal, toString]

theorem render_joined {α : Type} (f : α → List Atom) (g : α → String) (xs : List α)
    (h : ∀ x ∈ xs, render (f x) = (g x).toList) :
    render (joined (xs.map f)) = (PyText.commaJoin (xs.map g)).toList := by
  have hseparator : render (fixed ", ") = ", ".toList := render_fixed ", "
  rw [PyText.commaJoin, String.toList_intercalate]
  induction xs with
  | nil => rfl
  | cons x xs ih =>
    cases xs with
    | nil => simpa [joined] using h x (by simp)
    | cons y ys =>
      have ih' := ih fun z hz => h z (List.mem_cons_of_mem _ hz)
      simp only [joined, List.map_cons, List.intercalate_cons_cons, render_append, hseparator]
        at ih' ⊢
      rw [h x (by simp), ih']

theorem Select.render_atoms (q : Select) (d : Dialect) :
    render (q.atoms d) = (q.text d).toList := by
  have hnames : ∀ cs : List String,
      render (joined (cs.map d.name)) = (PyText.commaJoin (cs.map d.quote)).toList :=
    fun cs => render_joined d.name d.quote cs fun c _ => render_name d c
  unfold Select.atoms Select.text
  rcases hcols : q.columns with _ | _ | ⟨c, cs⟩
  all_goals
    simp only [render_append, render_fixed, render_name, hnames, toString, String.toList_append,
      List.append_assoc]

theorem toList_open : " (".toList = " ".toList ++ "(".toList := by decide

theorem toList_options : ") ENGINE=InnoDB DEFAULT CHARSET=utf8mb4".toList =
    ") ".toList ++ "ENGINE=InnoDB DEFAULT CHARSET=utf8mb4".toList := by decide

theorem toList_begin : "DO $$ BEGIN ".toList = "DO $$".toList ++ " BEGIN ".toList := by decide

theorem toList_typname :
    "  IF NOT EXISTS (SELECT 1 FROM pg_type WHERE typname = '".toList =
      "  IF NOT EXISTS (SELECT 1 FROM pg_type WHERE typname = ".toList ++ "'".toList := by decide

theorem toList_then : "') THEN ".toList = "'".toList ++ ") THEN ".toList := by decide

theorem toList_end : "END $$".toList = "END ".toList ++ "$$".toList := by decide

theorem toList_conflict :
    ") ON CONFLICT DO NOTHING".toList = ")".toList ++ " ON CONFLICT DO NOTHING".toList := by decide

theorem Insert.render_atoms (q : Insert) (d : Dialect) :
    render (q.atoms d) = (q.text d).toList := by
  have hnames : render (joined (q.columns.map d.name)) =
      (PyText.commaJoin (q.columns.map d.quote)).toList :=
    render_joined d.name d.quote _ fun c _ => render_name d c
  have hplaceholders := render_joined (fun i => fixed (d.placeholder i)) d.placeholder
    (List.range q.columns.length) fun i _ => render_fixed _
  unfold Insert.atoms Insert.text
  simp only [render_append, render_fixed, render_name, hnames, hplaceholders, toString]
  cases d with
  | postgres =>
    simp only [String.toList_append, List.append_assoc]
    rw [toList_conflict]
  | mysql => simp only [String.toList_append, List.append_assoc]
  | sqlite => simp only [String.toList_append, List.append_assoc]

theorem render_truncateAtoms (d : Dialect) (table : String) :
    render (truncateAtoms d table) = (truncateText d table).toList := by
  unfold truncateAtoms truncateText
  cases d <;> simp only [render_append, render_fixed, render_name, toString, String.toList_append]

theorem render_rowCountAtoms (d : Dialect) (table : String) :
    render (rowCountAtoms d table) = (rowCountText d table).toList := by
  unfold rowCountAtoms rowCountText
  cases d <;> simp only [render_append, render_fixed, render_name, toString, String.toList_append]

theorem render_columnDef (d : Dialect) (schema : TableSchema) (col : ColumnSchema) :
    render (d.name col.name ++ fixed (columnClauses d schema col)) =
      (match d with
        | .postgres => PostgresProvider.columnDef col
        | .mysql => MySQLProvider.columnDef col
        | .sqlite => SQLiteProvider.columnDef schema col).toList := by
  rw [render_append, render_fixed, render_name]
  cases d with
  | postgres =>
    simp only [columnClauses, PostgresProvider.columnDef, toString, reduceCtorEq, false_and,
      if_false, String.append_empty, String.toList_append, List.append_assoc]
  | mysql =>
    simp only [columnClauses, MySQLProvider.columnDef, toString, reduceCtorEq, false_and,
      if_false, String.append_empty, String.toList_append, List.append_assoc]
  | sqlite =>
    have htext : (columnType .sqlite col).text = col.dataType := String.append_empty
    simp only [columnClauses, SQLiteProvider.columnDef, toString, true_and, htext,
      String.toList_append, List.append_assoc]

/-- The `PRIMARY KEY` clause of its columns. -/
def keyText (d : Dialect) (key : List String) : String :=
  if key = [] then "" else s!", PRIMARY KEY ({PyText.commaJoin (key.map d.quote)})"

/-- The statement of `create_table` that makes the table. -/
def createTableText (d : Dialect) (schema : TableSchema) : String :=
  match d with
  | .postgres =>
    let pkClause := if schema.primaryKeys = [] then "" else
      s!", PRIMARY KEY ({PyText.commaJoin (schema.primaryKeys.map Dialect.postgres.quote)})"
    s!"CREATE TABLE IF NOT EXISTS {Dialect.postgres.quote schema.name} " ++
      s!"({PyText.commaJoin (schema.columns.map PostgresProvider.columnDef)}{pkClause})"
  | .mysql => MySQLProvider.createTableText schema
  | .sqlite => SQLiteProvider.createTableText schema

theorem render_keyAtoms (d : Dialect) (key : List String) :
    render (keyAtoms d key) = (keyText d key).toList := by
  have hnames := render_joined d.name d.quote key fun c _ => render_name d c
  unfold keyAtoms keyText
  split
  · rfl
  · simp only [render_append, render_fixed, hnames, toString, String.toList_append]

theorem render_createTableAtoms (d : Dialect) (schema : TableSchema) :
    render (createTableAtoms d schema) = (createTableText d schema).toList := by
  have hcolumns := fun f h => render_joined
    (fun col => d.name col.name ++ fixed (columnClauses d schema col)) f schema.columns h
  unfold createTableAtoms createTableText
  simp only [render_append, render_fixed, render_name, render_keyAtoms]
  cases d with
  | postgres =>
    rw [hcolumns PostgresProvider.columnDef fun col _ => render_columnDef .postgres schema col]
    have hkey : keyClause .postgres schema = schema.primaryKeys := by simp [keyClause]
    rw [hkey, keyText]
    simp only [toString, String.toList_append, List.append_assoc]
    rw [toList_open]
    simp only [List.append_assoc]
  | mysql =>
    rw [hcolumns MySQLProvider.columnDef fun col _ => render_columnDef .mysql schema col]
    have hkey : keyClause .mysql schema = schema.primaryKeys := by simp [keyClause]
    unfold MySQLProvider.createTableText
    rw [hkey, keyText]
    simp only [toString, String.toList_append, List.append_assoc]
    rw [toList_open, toList_options]
    simp only [List.append_assoc]
  | sqlite =>
    rw [hcolumns (SQLiteProvider.columnDef schema)
      fun col _ => render_columnDef .sqlite schema col]
    have hkey : keyText .sqlite (keyClause .sqlite schema) =
        if schema.primaryKeys.length > 1 then
          s!", PRIMARY KEY ({PyText.commaJoin (schema.primaryKeys.map Dialect.sqlite.quote)})"
        else "" := by
      by_cases hlength : schema.primaryKeys.length ≤ 1
      · rw [if_neg (Nat.not_lt_of_le hlength), keyClause, if_pos ⟨rfl, hlength⟩]
        rfl
      · have hne : schema.primaryKeys ≠ [] := by
          rintro hnil
          simp [hnil] at hlength
        simp [keyText, keyClause, hlength, hne, Nat.lt_of_not_le hlength]
    unfold SQLiteProvider.createTableText SQLiteProvider.tableDefinition
    rw [hkey]
    simp only [toString, String.toList_append, List.append_assoc]
    rw [toList_open]
    simp only [List.append_assoc]

def quotedLabels (labels : List String) : String :=
  PyText.commaJoin (labels.map fun v => s!"'{v}'")

theorem render_createTypeAtoms (typeName : String) (labels : List String) :
    "DO $$".toList ++ render (createTypeAtoms typeName labels) ++ "$$".toList =
      ("DO $$ BEGIN " ++
        s!"  IF NOT EXISTS (SELECT 1 FROM pg_type WHERE typname = '{typeName}') THEN " ++
        s!"    CREATE TYPE {typeName} AS ENUM ({quotedLabels labels}); " ++
        "  END IF; " ++ "END $$").toList := by
  have hlabels := render_joined literal (fun v => s!"'{v}'") labels fun v _ => render_literal v
  unfold createTypeAtoms quotedLabels
  simp only [render_append, render_fixed, render_literal, hlabels, toString, String.toList_append]
  rw [toList_begin, toList_typname, toList_then, toList_end]
  simp only [List.append_assoc]

/-! ## Their names stand apart -/

variable {d : Dialect}

/-- What may follow a text, a name or a placeholder. -/
def MayFollow (d : Dialect) (atoms : List Atom) : Prop := ∀ a, Separated d.rules a atoms

theorem separated_char {c : Char} (hc : c ∉ ['\'', '"', '`', '$']) {atoms : List Atom}
    (h : Separated d.rules .text atoms) (a : After) : Separated d.rules a (.char c :: atoms) := by
  have hdollar : c ≠ '$' := by
    rintro rfl
    exact hc (by decide)
  refine .char (isQuote_of_plain hc d) (fun _ => hdollar) ?_
  rwa [if_neg hdollar]

theorem separated_fixed {s : String} (hs : plainText s = true) {atoms : List Atom}
    (h : Separated d.rules .text atoms) : Separated d.rules .text (fixed s ++ atoms) := by
  unfold plainText at hs
  unfold fixed
  generalize s.toList = cs at hs
  induction cs with
  | nil => exact h
  | cons c cs ih =>
    rw [List.all_cons, Bool.and_eq_true] at hs
    exact separated_char (of_decide_eq_true hs.1) (ih hs.2) .text

theorem mayFollow_fixed {s : String} (hs : plainText s = true) (hne : s ≠ "") {atoms : List Atom}
    (h : Separated d.rules .text atoms) : MayFollow d (fixed s ++ atoms) := by
  intro a
  have htext := separated_fixed hs h
  unfold fixed at htext ⊢
  unfold plainText at hs
  cases hlist : s.toList with
  | nil => exact absurd (String.toList_eq_nil_iff.mp hlist) hne
  | cons c cs =>
    rw [hlist] at htext hs
    rw [List.all_cons, Bool.and_eq_true] at hs
    have hc := of_decide_eq_true hs.1
    have hdollar : c ≠ '$' := by
      rintro rfl
      exact hc (by decide)
    obtain _ | ⟨-, -, hrest⟩ := htext
    rw [if_neg hdollar] at hrest
    exact separated_char hc hrest a

theorem mayFollow_end {s : String} (hs : plainText s = true) (hne : s ≠ "") :
    MayFollow d (fixed s) := by
  have h : MayFollow d (fixed s ++ []) := mayFollow_fixed hs hne (.nil _)
  rwa [List.append_nil] at h

theorem separated_name {s : String} {atoms : List Atom} (h : MayFollow d atoms) :
    Separated d.rules .text (d.name s ++ atoms) :=
  .name _ (by simp) (isQuote_quoteChar d) (h .name)

theorem separated_literal {s : String} {atoms : List Atom} (h : MayFollow d atoms) :
    Separated d.rules .text (literal s ++ atoms) :=
  .name _ (by simp) rfl (h .name)

theorem separated_joined {parts : List (List Atom)} {atoms : List Atom}
    (hparts : ∀ p ∈ parts, ∀ rest, MayFollow d rest → Separated d.rules .text (p ++ rest))
    (h : MayFollow d atoms) : Separated d.rules .text (joined parts ++ atoms) := by
  unfold joined
  induction parts with
  | nil => exact h .text
  | cons p parts ih =>
    have hrest := ih fun q hq => hparts q (List.mem_cons_of_mem _ hq)
    cases parts with
    | nil =>
      rw [List.intercalate_singleton]
      exact hparts p (by simp) atoms h
    | cons q parts =>
      rw [List.intercalate_cons_cons, List.append_assoc, List.append_assoc]
      exact hparts p (by simp) _ (mayFollow_fixed (by decide) (by decide) hrest)

theorem separated_names {names : List String} {atoms : List Atom} (h : MayFollow d atoms) :
    Separated d.rules .text (joined (names.map d.name) ++ atoms) := by
  refine separated_joined ?_ h
  intro p hp rest hrest
  obtain ⟨name, -, rfl⟩ := List.mem_map.mp hp
  exact separated_name hrest

theorem plainText_append (s t : String) : plainText (s ++ t) = (plainText s && plainText t) := by
  simp [plainText]

theorem plainText_nat (n : Nat) : plainText (toString n) = true := by
  have hdigit : ∀ c : Char, c.isDigit = true → c ∉ ['\'', '"', '`', '$'] := by
    intro c hc hmem
    simp only [List.mem_cons, List.not_mem_nil, or_false] at hmem
    rcases hmem with rfl | rfl | rfl | rfl <;> exact absurd hc (by decide)
  unfold plainText
  rw [Nat.toString_eq_ofList_toDigits, String.toList_ofList, List.all_eq_true]
  intro c hc
  exact decide_eq_true (hdigit c (Nat.isDigit_of_mem_toDigits (by decide) (by decide) hc))

/-- A dollar sign with a number after it is followed by what a text is. -/
theorem separated_placeholder (i : Nat) {atoms : List Atom} (h : MayFollow d atoms) :
    Separated d.rules .text (fixed (d.placeholder i) ++ atoms) := by
  cases d with
  | mysql => exact separated_fixed (s := "%s") (by decide) (h .text)
  | sqlite => exact separated_fixed (s := "?") (by decide) (h .text)
  | postgres =>
    have hplaceholder : Dialect.postgres.placeholder i = "$" ++ toString (i + 1) := rfl
    have htext : fixed (Dialect.postgres.placeholder i) = .char '$' :: fixed (toString (i + 1)) := by
      rw [hplaceholder, fixed, String.toList_append]
      rfl
    have hne : toString (i + 1) ≠ "" := by
      rw [Nat.toString_eq_ofList_toDigits]
      intro hempty
      have hnil := congrArg String.toList hempty
      rw [String.toList_ofList] at hnil
      exact Nat.toDigits_ne_nil hnil
    rw [htext]
    refine .char rfl (by simp) ?_
    rw [if_pos rfl]
    exact mayFollow_fixed (plainText_nat (i + 1)) hne (h .text) .dollar

theorem Select.separated_atoms (q : Select) (d : Dialect) :
    Separated d.rules .text (q.atoms d) := by
  have hend : MayFollow d (fixed " OFFSET " ++ fixed (d.placeholder 1)) := by
    have hlast : Separated d.rules .text (fixed (d.placeholder 1) ++ []) :=
      separated_placeholder 1 .nil
    rw [List.append_nil] at hlast
    exact mayFollow_fixed (by decide) (by decide) hlast
  have htail := mayFollow_fixed (d := d) (s := " FROM ") (by decide) (by decide)
    (separated_name (s := q.table) (mayFollow_fixed (d := d) (s := " LIMIT ") (by decide) (by decide)
      (separated_placeholder 0 hend)))
  unfold Select.atoms
  simp only [List.append_assoc]
  refine separated_fixed (by decide) ?_
  rcases hcols : q.columns with _ | _ | ⟨c, cs⟩
  · exact separated_fixed (by decide) (htail .text)
  · exact separated_fixed (by decide) (htail .text)
  · exact separated_names htail

theorem Insert.separated_atoms (q : Insert) (d : Dialect) :
    Separated d.rules .text (q.atoms d) := by
  have hplaceholders : ∀ atoms, MayFollow d atoms → Separated d.rules .text
      (joined ((List.range q.columns.length).map fun i => fixed (d.placeholder i)) ++ atoms) := by
    intro atoms h
    refine separated_joined ?_ h
    intro p hp rest hrest
    obtain ⟨i, -, rfl⟩ := List.mem_map.mp hp
    exact separated_placeholder i hrest
  have htail : ∀ conflict, plainText conflict = true → conflict ≠ "" →
      Separated d.rules .text (d.name q.table ++ (fixed " (" ++ (joined (q.columns.map d.name) ++
        (fixed ") VALUES (" ++ (joined ((List.range q.columns.length).map fun i =>
          fixed (d.placeholder i)) ++ fixed conflict))))) := by
    intro conflict hplain hne
    refine separated_name (mayFollow_fixed (by decide) (by decide) (separated_names ?_))
    exact mayFollow_fixed (by decide) (by decide) (hplaceholders _ (mayFollow_end hplain hne))
  unfold Insert.atoms
  simp only [List.append_assoc]
  cases d with
  | postgres =>
    exact separated_fixed (s := "INSERT INTO ") (by decide)
      (htail ") ON CONFLICT DO NOTHING" (by decide) (by decide))
  | mysql =>
    exact separated_fixed (s := "INSERT IGNORE INTO ") (by decide) (htail ")" (by decide) (by decide))
  | sqlite =>
    exact separated_fixed (s := "INSERT OR IGNORE INTO ") (by decide)
      (htail ")" (by decide) (by decide))

theorem separated_truncateAtoms (d : Dialect) (table : String) :
    Separated d.rules .text (truncateAtoms d table) := by
  have hname : Separated d.rules .text (d.name table ++ []) := separated_name .nil
  rw [List.append_nil] at hname
  unfold truncateAtoms
  cases d <;> dsimp only
  · simp only [List.append_assoc]
    exact separated_fixed (by decide) (separated_name (mayFollow_end (by decide) (by decide)))
  · exact separated_fixed (by decide) hname
  · exact separated_fixed (by decide) hname

theorem separated_rowCountAtoms (d : Dialect) (table : String) :
    Separated d.rules .text (rowCountAtoms d table) := by
  have hname : Separated d.rules .text (d.name table ++ []) := separated_name .nil
  rw [List.append_nil] at hname
  unfold rowCountAtoms
  cases d <;> dsimp only
  · exact separated_fixed (by decide) hname
  · exact separated_fixed (by decide) hname
  · exact separated_fixed (by decide) hname

theorem plainText_size (size : TypeSize) : plainText size.text = true := by
  cases size with
  | unsized => decide
  | length n =>
    have htext : (TypeSize.length n).text = "(" ++ toString n ++ ")" := rfl
    rw [htext, plainText_append, plainText_append, plainText_nat]
    decide
  | precision p s =>
    have htext : (TypeSize.precision p s).text =
        "(" ++ toString p ++ "," ++ toString s ++ ")" := rfl
    simp only [htext, plainText_append, plainText_nat]
    decide

theorem plainText_columnClauses (schema : TableSchema) {col : ColumnSchema}
    (h : plainText col.dataType = true) : plainText (columnClauses d schema col) = true := by
  have htype : plainText (columnType d col).text = true := by
    have hname : (columnType d col).name = col.dataType := by cases d <;> rfl
    rw [ColumnType.text, plainText_append, plainText_size, hname, h]
    rfl
  have hspace : plainText " " = true := by decide
  have hnull : plainText (if col.isNullable then "" else " NOT NULL") = true := by
    split <;> decide
  have hkey : plainText (if d = .sqlite ∧ col.isPrimaryKey ∧ schema.primaryKeys.length = 1 then
      " PRIMARY KEY" else "") = true := by
    split <;> decide
  unfold columnClauses
  simp only [plainText_append, hspace, htype, hnull, hkey, Bool.and_self]

theorem columnClauses_ne (schema : TableSchema) (col : ColumnSchema) :
    columnClauses d schema col ≠ "" := by
  have htext : columnClauses d schema col = " " ++ ((columnType d col).text ++
      (if col.isNullable then "" else " NOT NULL") ++
      (if d = .sqlite ∧ col.isPrimaryKey ∧ schema.primaryKeys.length = 1 then " PRIMARY KEY"
        else "")) := by
    unfold columnClauses
    simp only [String.append_assoc]
  rw [htext]
  intro hempty
  have hlength := congrArg String.length hempty
  rw [String.length_append] at hlength
  have hone : " ".length = 1 := rfl
  have hzero : "".length = 0 := rfl
  omega

theorem mayFollow_keyAtoms (key : List String) {atoms : List Atom} (h : MayFollow d atoms) :
    MayFollow d (keyAtoms d key ++ atoms) := by
  unfold keyAtoms
  split
  · exact h
  · simp only [List.append_assoc]
    exact mayFollow_fixed (by decide) (by decide)
      (separated_names (mayFollow_fixed (by decide) (by decide) (h .text)))

theorem separated_createTableAtoms (d : Dialect) (schema : TableSchema)
    (h : ∀ col ∈ schema.columns, plainText col.dataType = true) :
    Separated d.rules .text (createTableAtoms d schema) := by
  have hcolumns : ∀ atoms, MayFollow d atoms → Separated d.rules .text
      (joined (schema.columns.map fun col => d.name col.name ++ fixed (columnClauses d schema col))
        ++ atoms) := by
    intro atoms hatoms
    refine separated_joined ?_ hatoms
    intro p hp rest hrest
    obtain ⟨col, hcol, rfl⟩ := List.mem_map.mp hp
    rw [List.append_assoc]
    exact separated_name (mayFollow_fixed (plainText_columnClauses schema (h col hcol))
      (columnClauses_ne schema col) (hrest .text))
  have htable : ∀ options, plainText options = true → options ≠ "" →
      Separated d.rules .text (d.name schema.name ++ (fixed " (" ++
        (joined (schema.columns.map fun col =>
            d.name col.name ++ fixed (columnClauses d schema col)) ++
          (keyAtoms d (keyClause d schema) ++ fixed options)))) := by
    intro options hplain hne
    exact separated_name (mayFollow_fixed (by decide) (by decide)
      (hcolumns _ (mayFollow_keyAtoms _ (mayFollow_end hplain hne))))
  unfold createTableAtoms
  simp only [List.append_assoc]
  refine separated_fixed (by decide) ?_
  cases d with
  | postgres => exact htable ")" (by decide) (by decide)
  | mysql => exact htable ") ENGINE=InnoDB DEFAULT CHARSET=utf8mb4" (by decide) (by decide)
  | sqlite => exact htable ")" (by decide) (by decide)

theorem separated_createTypeAtoms {typeName : String} (h : plainText typeName = true)
    (labels : List String) :
    Separated Dialect.postgres.rules .text (createTypeAtoms typeName labels) := by
  have hlabels : ∀ atoms, MayFollow .postgres atoms →
      Separated Dialect.postgres.rules .text (joined (labels.map literal) ++ atoms) := by
    intro atoms hatoms
    refine separated_joined ?_ hatoms
    intro p hp rest hrest
    obtain ⟨label, -, rfl⟩ := List.mem_map.mp hp
    exact separated_literal hrest
  have hclose := hlabels (fixed "); " ++ (fixed "  END IF; " ++ fixed "END "))
    (mayFollow_fixed (by decide) (by decide)
      (mayFollow_fixed (by decide) (by decide) (mayFollow_end (by decide) (by decide) .text) .text))
  have htype := separated_fixed (d := .postgres) h
    (mayFollow_fixed (s := " AS ENUM (") (by decide) (by decide) hclose .text)
  unfold createTypeAtoms
  simp only [List.append_assoc]
  refine separated_fixed (by decide) (separated_fixed (by decide) (separated_literal ?_))
  exact mayFollow_fixed (by decide) (by decide) (separated_fixed (by decide) htype)

/-! ## What a provider sends -/

/-- A statement, with the skeleton it is made of; the one of a block stands between dollar signs. -/
structure SentStatement where
  text : String
  atoms : List Atom
  block : Bool

/-- The statement lexes to the fixed tokens of its skeleton, with one quoted token for each name
that holds the name. -/
def SentStatement.ReadAsMeant (d : Dialect) (s : SentStatement) : Prop :=
  if s.block then ∃ body, lex d.rules s.text.toList = some [.word ['D', 'O'], .body body] ∧
    lex d.rules body = some (intended d.rules s.atoms)
  else lex d.rules s.text.toList = some (intended d.rules s.atoms)

/-- The calls that build statements from names. -/
inductive Built where
  | fetchBatch (q : Select)
  | insertBatch (q : Insert)
  | createTable (schema : TableSchema)
  | truncateTable (table : String)
  | getRowCount (table : String)

namespace Built

/-- The statement that makes the enum type of a column, where it has one. -/
def createType (col : ColumnSchema) : Option SentStatement :=
  (PostgresProvider.createTypeText col).map fun text =>
    ⟨text, createTypeAtoms col.dataType (col.enumValues.getD []), true⟩

def statements (d : Dialect) : Built → List SentStatement
  | fetchBatch q => [⟨q.text d, q.atoms d, false⟩]
  | insertBatch q => [⟨q.text d, q.atoms d, false⟩]
  | createTable schema =>
    (if d = .postgres then schema.columns.filterMap createType else []) ++
      [⟨createTableText d schema, createTableAtoms d schema, false⟩]
  | truncateTable table => [⟨truncateText d table, truncateAtoms d table, false⟩]
  | getRowCount table => [⟨rowCountText d table, rowCountAtoms d table, false⟩]

/-- The table and the columns that a call names. -/
def names (d : Dialect) : Built → List String
  | fetchBatch q => q.table :: q.columns.getD []
  | insertBatch q => q.table :: q.columns
  | createTable schema => schema.name :: schema.columns.map (·.name) ++ keyClause d schema
  | truncateTable table | getRowCount table => [table]

/-- The enum labels that a call names. -/
def labels (d : Dialect) : Built → List String
  | createTable schema =>
    if d = .postgres then schema.columns.flatMap fun col => col.enumValues.getD [] else []
  | _ => []

/-- No data type of the schema has quotes or dollar signs. -/
def PlainTypes : Built → Prop
  | createTable schema => ∀ col ∈ schema.columns, plainText col.dataType = true
  | _ => True

/-- No name holds the dialect's quote, and no label a single quote or a pair of dollar signs. -/
structure CleanNames (d : Dialect) (b : Built) : Prop where
  names : ∀ name ∈ b.names d, d.quoteChar ∉ name.toList
  labels : ∀ label ∈ b.labels d, '\'' ∉ label.toList ∧ ¬ ['$', '$'] <:+: label.toList

/-- These are the statements of PostgreSQL's `create_table`. -/
theorem texts_createTable (schema : TableSchema) :
    ((createTable schema).statements .postgres).map (·.text) =
      PostgresProvider.createTableTexts schema := by
  have htypes : (schema.columns.filterMap createType).map (·.text) =
      schema.columns.filterMap PostgresProvider.createTypeText := by
    rw [List.map_filterMap]
    refine List.filterMap_congr ?_
    intro col _
    simp [createType, Option.map_map, Function.comp_def]
  simp only [statements, if_true, List.map_append, htypes]
  rfl

end Built

section

variable {P : Char → List Char → Prop}

theorem allNames_append {as bs : List Atom} :
    AllNames P (as ++ bs) ↔ AllNames P as ∧ AllNames P bs := by
  simp only [AllNames, List.mem_append]
  constructor
  · exact fun h => ⟨fun d v hmem => h d v (Or.inl hmem), fun d v hmem => h d v (Or.inr hmem)⟩
  · exact fun h d v hmem => hmem.elim (h.1 d v) (h.2 d v)

theorem allNames_fixed (s : String) : AllNames P (fixed s) := by
  intro d v hmem
  simp [fixed] at hmem

theorem allNames_name {d : Dialect} {s : String} :
    AllNames P (d.name s) ↔ P d.quoteChar s.toList := by
  simp [AllNames, Dialect.name]

theorem allNames_literal {s : String} : AllNames P (literal s) ↔ P '\'' s.toList := by
  simp [AllNames, literal]

theorem allNames_joined {α : Type} {f : α → List Atom} {xs : List α} :
    AllNames P (joined (xs.map f)) ↔ ∀ x ∈ xs, AllNames P (f x) := by
  unfold joined
  induction xs with
  | nil => simp [AllNames, List.intercalate]
  | cons x xs ih =>
    cases xs with
    | nil => simp
    | cons y ys =>
      rw [List.map_cons, List.map_cons, List.intercalate_cons_cons, allNames_append,
        allNames_append, ← List.map_cons, ih]
      simp [allNames_fixed]

theorem allNames_createTypeAtoms {typeName : String} {labels : List String} :
    AllNames P (createTypeAtoms typeName labels) ↔
      P '\'' typeName.toList ∧ ∀ label ∈ labels, P '\'' label.toList := by
  unfold createTypeAtoms
  simp only [allNames_append, allNames_fixed, allNames_literal, allNames_joined, true_and, and_true]

end

theorem Select.clean_atoms (q : Select) (d : Dialect) :
    Clean (q.atoms d) ↔ ∀ name ∈ q.table :: q.columns.getD [], d.quoteChar ∉ name.toList := by
  unfold Select.atoms Clean
  rcases hcols : q.columns with _ | _ | ⟨c, cs⟩
  · simp [allNames_append, allNames_fixed, allNames_name]
  · simp [allNames_append, allNames_fixed, allNames_name]
  · simp only [allNames_append, allNames_fixed, allNames_name, allNames_joined, true_and, and_true,
      Option.getD_some, List.forall_mem_cons]
    exact and_comm

theorem Insert.clean_atoms (q : Insert) (d : Dialect) :
    Clean (q.atoms d) ↔ ∀ name ∈ q.table :: q.columns, d.quoteChar ∉ name.toList := by
  unfold Insert.atoms Clean
  simp only [allNames_append, allNames_fixed, allNames_name, allNames_joined, true_and, and_true,
    List.forall_mem_cons, implies_true]

theorem clean_truncateAtoms (d : Dialect) (table : String) :
    Clean (truncateAtoms d table) ↔ d.quoteChar ∉ table.toList := by
  unfold truncateAtoms Clean
  cases d <;> simp only [allNames_append, allNames_fixed, allNames_name, true_and, and_true]

theorem clean_rowCountAtoms (d : Dialect) (table : String) :
    Clean (rowCountAtoms d table) ↔ d.quoteChar ∉ table.toList := by
  unfold rowCountAtoms Clean
  cases d <;> simp only [allNames_append, allNames_fixed, allNames_name, true_and]

theorem clean_keyAtoms (d : Dialect) (key : List String) :
    Clean (keyAtoms d key) ↔ ∀ name ∈ key, d.quoteChar ∉ name.toList := by
  unfold keyAtoms Clean
  split
  · rename_i hnil
    simp [hnil, AllNames]
  · simp only [allNames_append, allNames_fixed, allNames_name, allNames_joined, true_and, and_true]

theorem clean_createTableAtoms (d : Dialect) (schema : TableSchema) :
    Clean (createTableAtoms d schema) ↔
      ∀ name ∈ (Built.createTable schema).names d, d.quoteChar ∉ name.toList := by
  have hkey := clean_keyAtoms d (keyClause d schema)
  unfold Clean at hkey
  unfold createTableAtoms Clean
  simp only [allNames_append, allNames_fixed, allNames_name, allNames_joined, hkey, true_and,
    and_true, Built.names, List.cons_append, List.forall_mem_cons, List.forall_mem_append,
    List.forall_mem_map, and_assoc]

/-- A statement outside of a block is read as meant where its names are clean. -/
theorem readAsMeant_iff {d : Dialect} {text : String} {atoms : List Atom}
    (htext : render atoms = text.toList) (hseparated : Separated d.rules .text atoms) :
    (SentStatement.mk text atoms false).ReadAsMeant d ↔ Clean atoms := by
  have hiff := SqlLexer.lex_render_iff hseparated
  rwa [htext] at hiff

theorem run_do : SqlLexer.run Dialect.postgres.rules ⟨[], .between⟩ "DO $$".toList =
    ⟨[.word ['D', 'O']], .body []⟩ := by
  decide

theorem lex_do {text body : List Char} (hlast : text.getLast? ≠ some '$') :
    lex Dialect.postgres.rules ("DO $$".toList ++ text ++ "$$".toList) =
        some [.word ['D', 'O'], .body body] ↔
      ¬ ['$', '$'] <:+: text ∧ body = text := by
  have hdollars : "$$".toList = ['$', '$'] := by decide
  have hrun : SqlLexer.run Dialect.postgres.rules ⟨[], .between⟩
      ("DO $$".toList ++ text ++ "$$".toList) =
        SqlLexer.run Dialect.postgres.rules ⟨[.word ['D', 'O']], .body []⟩ (text ++ ['$', '$']) := by
    rw [← run_do, hdollars, List.append_assoc]
    exact List.foldl_append
  rw [lex, hrun]
  exact SqlLexer.finish_body_iff hlast

/-- The block of an enum type is read as meant where its labels are clean. -/
theorem createType_readAsMeant_iff {typeName : String} (h : plainText typeName = true)
    (labels : List String) {text : String}
    (htext : "DO $$".toList ++ render (createTypeAtoms typeName labels) ++ "$$".toList =
      text.toList) :
    (SentStatement.mk text (createTypeAtoms typeName labels) true).ReadAsMeant .postgres ↔
      ∀ label ∈ labels, '\'' ∉ label.toList ∧ ¬ ['$', '$'] <:+: label.toList := by
  have hseparated := separated_createTypeAtoms h labels
  have hlast : (render (createTypeAtoms typeName labels)).getLast? ≠ some '$' := by
    have hend : "END ".toList = ['E', 'N', 'D', ' '] := by decide
    unfold createTypeAtoms
    rw [render_append, render_fixed, hend]
    simp
  have hnone : ∀ c ∈ ['\'', '$'], c ∉ typeName.toList := by
    intro c hc hmem
    have hplain := of_decide_eq_true (List.all_eq_true.mp h _ hmem)
    simp only [List.mem_cons, List.not_mem_nil, or_false] at hc
    rcases hc with rfl | rfl <;> exact absurd hplain (by decide)
  have hpair : ¬ ['$', '$'] <:+: render (createTypeAtoms typeName labels) ↔
      ∀ label ∈ labels, ¬ ['$', '$'] <:+: label.toList := by
    rw [SqlLexer.pair_infix_render_iff hseparated, allNames_createTypeAtoms]
    exact and_iff_right fun hsub => hnone '$' (by simp) (hsub.subset (by simp))
  have hclean : Clean (createTypeAtoms typeName labels) ↔
      ∀ label ∈ labels, '\'' ∉ label.toList := by
    unfold Clean
    rw [allNames_createTypeAtoms]
    exact and_iff_right (hnone '\'' (by simp))
  have hbody := SqlLexer.lex_render_iff hseparated
  have hblock : (SentStatement.mk text (createTypeAtoms typeName labels) true).ReadAsMeant .postgres ↔
      ∃ body, lex Dialect.postgres.rules text.toList = some [.word ['D', 'O'], .body body] ∧
        lex Dialect.postgres.rules body =
          some (intended Dialect.postgres.rules (createTypeAtoms typeName labels)) := Iff.rfl
  rw [hblock, ← htext]
  simp only [lex_do hlast, hpair]
  constructor
  · rintro ⟨body, ⟨hdollar, rfl⟩, hlex⟩ label hlabel
    exact ⟨hclean.mp (hbody.mp hlex) label hlabel, hdollar label hlabel⟩
  · intro hlabels
    exact ⟨_, ⟨fun label hlabel => (hlabels label hlabel).2, rfl⟩,
      hbody.mpr (hclean.mpr fun label hlabel => (hlabels label hlabel).1)⟩

/-- The name in the pragma of SQLite's `get_table_schema` is a literal. -/
theorem pragma_readAsMeant_iff (table : String) :
    (SentStatement.mk s!"PRAGMA table_info('{table}')"
      (fixed "PRAGMA table_info(" ++ literal table ++ fixed ")") false).ReadAsMeant .sqlite ↔
        '\'' ∉ table.toList := by
  have htext : render (fixed "PRAGMA table_info(" ++ literal table ++ fixed ")") =
      s!"PRAGMA table_info('{table}')".toList := by
    have hopen : "PRAGMA table_info('".toList = "PRAGMA table_info(".toList ++ "'".toList := by
      decide
    have hclose : "')".toList = "'".toList ++ ")".toList := by decide
    simp only [render_append, render_fixed, render_literal, toString, String.toList_append]
    rw [hopen, hclose]
    simp only [List.append_assoc]
  have hseparated : Separated Dialect.sqlite.rules .text
      (fixed "PRAGMA table_info(" ++ literal table ++ fixed ")") := by
    rw [List.append_assoc]
    exact separated_fixed (by decide) (separated_literal (mayFollow_end (by decide) (by decide)))
  rw [readAsMeant_iff htext hseparated, Clean, allNames_append, allNames_append, allNames_literal]
  simp only [allNames_fixed, true_and, and_true]

namespace Built

theorem createTypes_readAsMeant_iff {schema : TableSchema}
    (h : ∀ col ∈ schema.columns, plainText col.dataType = true) :
    (∀ s ∈ schema.columns.filterMap createType, s.ReadAsMeant .postgres) ↔
      ∀ label ∈ (createTable schema).labels .postgres,
        '\'' ∉ label.toList ∧ ¬ ['$', '$'] <:+: label.toList := by
  have hcolumn : ∀ col ∈ schema.columns, (∀ s, createType col = some s → s.ReadAsMeant .postgres) ↔
      ∀ label ∈ col.enumValues.getD [], '\'' ∉ label.toList ∧ ¬ ['$', '$'] <:+: label.toList := by
    intro col hcol
    cases hvalues : col.enumValues with
    | none => simp [createType, PostgresProvider.createTypeText, hvalues]
    | some values =>
      have htext := render_createTypeAtoms col.dataType values
      have hiff := createType_readAsMeant_iff (h col hcol) values htext
      simp only [createType, PostgresProvider.createTypeText, hvalues, Option.map_some,
        Option.some.injEq, forall_eq', Option.getD_some]
      exact hiff
  simp only [List.mem_filterMap, labels, if_true, List.mem_flatMap]
  constructor
  · rintro hall label ⟨col, hcol, hlabel⟩
    exact (hcolumn col hcol).mp (fun s hs => hall s ⟨col, hcol, hs⟩) label hlabel
  · rintro hall s ⟨col, hcol, hs⟩
    exact (hcolumn col hcol).mpr (fun label hlabel => hall label ⟨col, hcol, hlabel⟩) s hs

/-- A call's statements name exactly what it was given where its names hold no quote of the dialect
and its labels neither a single quote nor a pair of dollar signs. -/
theorem readAsMeant_iff_cleanNames (d : Dialect) (b : Built) (h : b.PlainTypes) :
    (∀ s ∈ b.statements d, s.ReadAsMeant d) ↔ b.CleanNames d := by
  have hsingle : ∀ {text atoms}, render atoms = String.toList text →
      Separated d.rules .text atoms → (Clean atoms ↔ ∀ name ∈ b.names d, d.quoteChar ∉ name.toList) →
      b.labels d = [] →
      ((∀ s ∈ [SentStatement.mk text atoms false], s.ReadAsMeant d) ↔ b.CleanNames d) := by
    intro text atoms htext hseparated hclean hlabels
    rw [List.forall_mem_singleton, readAsMeant_iff htext hseparated, hclean]
    exact ⟨fun hnames => ⟨hnames, by simp [hlabels]⟩, fun hb => hb.names⟩
  cases b with
  | fetchBatch q => exact hsingle (q.render_atoms d) (q.separated_atoms d) (q.clean_atoms d) rfl
  | insertBatch q => exact hsingle (q.render_atoms d) (q.separated_atoms d) (q.clean_atoms d) rfl
  | truncateTable table =>
    refine hsingle (render_truncateAtoms d table) (separated_truncateAtoms d table) ?_ rfl
    simp only [clean_truncateAtoms, names, List.forall_mem_singleton]
  | getRowCount table =>
    refine hsingle (render_rowCountAtoms d table) (separated_rowCountAtoms d table) ?_ rfl
    simp only [clean_rowCountAtoms, names, List.forall_mem_singleton]
  | createTable schema =>
    have htable := readAsMeant_iff (render_createTableAtoms d schema)
      (separated_createTableAtoms d schema h)
    rw [clean_createTableAtoms] at htable
    by_cases hd : d = .postgres
    · subst hd
      have hlabels := createTypes_readAsMeant_iff h
      simp only [statements, if_true, List.forall_mem_append, List.forall_mem_singleton, htable,
        hlabels]
      exact ⟨fun hboth => ⟨hboth.2, hboth.1⟩, fun hb => ⟨hb.labels, hb.names⟩⟩
    · simp only [statements, if_neg hd, List.nil_append, List.forall_mem_singleton, htable]
      exact ⟨fun hnames => ⟨hnames, by simp [labels, hd]⟩, fun hb => hb.names⟩

example : intended Dialect.mysql.rules (truncateAtoms .mysql "a `b") =
    [.word "TRUNCATE".toList, .word "TABLE".toList, .quoted '`' "a `b".toList] := by decide

private def moods : TableSchema where
  name := "people"
  columns := [{ name := "mood", dataType := "mood", enumValues := some ["sad", "ok"] }]

theorem readAsMeant_iff_cleanNames_moods :
    (∀ s ∈ (createTable moods).statements .postgres, s.ReadAsMeant .postgres) ↔
      (createTable moods).CleanNames .postgres := by
  have hplain : (createTable moods).PlainTypes := by
    intro col hcol
    rw [List.mem_singleton.mp hcol]
    decide
  exact readAsMeant_iff_cleanNames .postgres (createTable moods) hplain

/-- The quote in the name ends the token, and the rest of it is another statement. -/
theorem truncate_injected :
    ¬ ∀ s ∈ (truncateTable "a\"; DROP TABLE \"b").statements .postgres,
      s.ReadAsMeant .postgres := by
  have hseparated := separated_truncateAtoms .postgres "a\"; DROP TABLE \"b"
  have htext := render_truncateAtoms .postgres "a\"; DROP TABLE \"b"
  simp only [statements, List.forall_mem_singleton]
  rw [readAsMeant_iff htext hseparated, clean_truncateAtoms]
  decide

end Built

end DataBridge
