import DataBridge.Framework.Joins
import DataBridge.Framework.TiedOrder
import DataBridge.Providers.TableStatements
import Mathlib.Data.List.Perm.Basic

namespace DataBridge.PostgresProvider

/-! ## The catalogue, and the query for the columns of a table -/

/-- What `information_schema.columns` says of a column, beside its table. -/
structure ColumnInfo where
  columnName : String
  ordinalPosition : Nat
  udtName : String
  isNullable : String
  columnDefault : Option String
  characterMaximumLength : Option Nat
  numericPrecision : Option Nat
  numericScale : Option Nat
  length : udtName ∈ pgTypeMap.map Prod.fst → udtName ∉ ["varchar", "bpchar"] →
    characterMaximumLength = none
  scale : udtName ∈ pgTypeMap.map Prod.fst → udtName ≠ "numeric" → numericScale.getD 0 = 0

/-- A row of `information_schema.columns`. -/
structure CatalogueColumn where
  tableSchema : String
  tableName : String
  column : ColumnInfo

/-- A row of `information_schema.table_constraints`. -/
structure TableConstraint where
  tableSchema : String
  tableName : String
  constraintName : String
  constraintType : String

/-- A row of `information_schema.key_column_usage`. -/
structure KeyColumnUsage where
  tableSchema : String
  tableName : String
  constraintName : String
  columnName : String

/-- The three views, as the role of the connection sees them. -/
structure InformationSchema where
  columns : List CatalogueColumn
  tableConstraints : List TableConstraint
  keyColumnUsage : List KeyColumnUsage

namespace InformationSchema

variable (views : InformationSchema) (tableName : String)

/-- The subquery `pk`: the constraint and its columns are joined by the name and the schema. -/
def pkColumns : List String :=
  ((Joins.inner (fun (tc : TableConstraint) ku =>
      tc.constraintName = ku.constraintName && tc.tableSchema = ku.tableSchema)
    views.tableConstraints views.keyColumnUsage).filter fun r =>
      r.1.constraintType = "PRIMARY KEY" && r.1.tableName = tableName &&
        r.1.tableSchema = "public").map (·.2.columnName)

/-- The columns of the table and whether they have a partner in `pk`, in no order yet. -/
def columnQuery : List (ColumnInfo × Bool) :=
  ((Joins.left (fun (c : CatalogueColumn) pk => c.column.columnName = pk)
    views.columns (views.pkColumns tableName)).filter fun r =>
      r.1.tableName = tableName && r.1.tableSchema = "public").map fun r =>
        (r.1.column, r.2.isSome)

/-- An answer of the query, which orders the rows by their position. -/
def Answers (answer : List (ColumnInfo × Bool)) : Prop :=
  TiedOrder.Sorts (·.1.ordinalPosition) (views.columnQuery tableName) answer

end InformationSchema

def ColumnInfo.row (a : ColumnInfo) (isPk : Bool) : ColumnRow where
  columnName := a.columnName
  dataType := a.udtName
  isNullable := a.isNullable
  columnDefault := a.columnDefault
  characterMaximumLength := a.characterMaximumLength
  numericPrecision := a.numericPrecision
  numericScale := a.numericScale
  isPk := isPk
  length := a.length
  scale := a.scale

/-- `get_table_schema`, from the answers of its queries. -/
def readTableSchema (tableName : String) (enumMap : Dict String (List String))
    (answer : List (ColumnInfo × Bool)) (rowCount : Nat) : TableSchema :=
  tableSchema tableName enumMap (answer.map fun r => r.1.row r.2) rowCount

/-! ## What is declared, and what the views show of it -/

structure PrimaryKey where
  name : String
  columns : List String
  nodup : columns.Nodup
  nonempty : columns ≠ []

inductive ConstraintType where
  | unique
  | foreignKey
  | check
  deriving DecidableEq, Repr

def ConstraintType.text : ConstraintType → String
  | unique => "UNIQUE"
  | foreignKey => "FOREIGN KEY"
  | check => "CHECK"

/-- A constraint other than the primary key. -/
structure Constraint where
  name : String
  type : ConstraintType
  columns : List String
  deriving DecidableEq, Repr

/-- A table, and what the role may do with it: with any privilege it sees the columns and those of
the keys, with one other than SELECT also the constraints. -/
structure DeclaredTable where
  tableSchema : String
  tableName : String
  columns : List ColumnInfo
  primaryKey : Option PrimaryKey
  constraints : List Constraint
  accessible : Bool
  constraintsShown : Bool
  ordered : (columns.map (·.ordinalPosition)).Pairwise (· < ·)
  named : (columns.map (·.columnName)).Nodup
  keyed : ∀ k, primaryKey = some k → ∀ c ∈ k.columns, c ∈ columns.map (·.columnName)
  apart : ∀ k, primaryKey = some k → ∀ c ∈ constraints, c.name ≠ k.name
  shown : constraintsShown = true → accessible = true

namespace DeclaredTable

variable (t : DeclaredTable)

def names : List String := t.columns.map (·.columnName)

/-- The columns of its primary key. -/
def keyColumns : List String := (t.primaryKey.map (·.columns)).getD []

def catalogueColumns : List CatalogueColumn :=
  if t.accessible then t.columns.map fun a => ⟨t.tableSchema, t.tableName, a⟩ else []

def tableConstraints : List TableConstraint :=
  if t.constraintsShown then
    (t.primaryKey.map fun k =>
      (⟨t.tableSchema, t.tableName, k.name, "PRIMARY KEY"⟩ : TableConstraint)).toList ++
    t.constraints.map fun c => ⟨t.tableSchema, t.tableName, c.name, c.type.text⟩
  else []

/-- The columns of one constraint in `key_column_usage`. -/
def usage (constraintName : String) (columns : List String) : List KeyColumnUsage :=
  columns.map fun column => ⟨t.tableSchema, t.tableName, constraintName, column⟩

def keyColumnUsage : List KeyColumnUsage :=
  if t.accessible then
    t.primaryKey.toList.flatMap (fun k => t.usage k.name k.columns) ++
    (t.constraints.filter (·.type ≠ .check)).flatMap fun c => t.usage c.name c.columns
  else []

/-- The schema as declared: each column once, in order. -/
def schema (enumMap : Dict String (List String)) (rowCount : Nat) : TableSchema :=
  readTableSchema t.tableName enumMap
    (t.columns.map fun a => (a, decide (a.columnName ∈ t.keyColumns))) rowCount

end DeclaredTable

/-- The tables of a database. A primary key and a unique constraint have an index of their name, and
names of indexes are unique in a schema; a foreign key has none. -/
structure DeclaredDatabase where
  tables : List DeclaredTable
  distinct : (tables.map fun t => (t.tableSchema, t.tableName)).Nodup
  indexes : ∀ t ∈ tables, ∀ k, t.primaryKey = some k → ∀ u ∈ tables, u.tableSchema = t.tableSchema →
    (∀ l, u.primaryKey = some l → l.name = k.name → u = t) ∧
      ∀ c ∈ u.constraints, c.type = .unique → c.name ≠ k.name

namespace DeclaredDatabase

variable (db : DeclaredDatabase)

def informationSchema : InformationSchema where
  columns := db.tables.flatMap DeclaredTable.catalogueColumns
  tableConstraints := db.tables.flatMap DeclaredTable.tableConstraints
  keyColumnUsage := db.tables.flatMap DeclaredTable.keyColumnUsage

end DeclaredDatabase

/-! ## What the query reads -/

namespace DeclaredTable

/-- The columns that a constraint of this name gives to `pk`. -/
theorem filter_usage (t : DeclaredTable) (key name : String) (columns : List String) :
    ((t.usage name columns).filter fun ku =>
        key = ku.constraintName && "public" = ku.tableSchema).map (·.columnName) =
      if key = name ∧ t.tableSchema = "public" then columns else [] := by
  rw [usage]
  by_cases h : key = name ∧ t.tableSchema = "public"
  · obtain ⟨hname, hpublic⟩ := h
    rw [if_pos ⟨hname, hpublic⟩, List.filter_eq_self.mpr, List.map_map]
    · exact List.map_id columns
    · intro ku hku
      obtain ⟨column, -, rfl⟩ := List.mem_map.mp hku
      simp [hname, hpublic]
  · rw [if_neg h, List.filter_eq_nil_iff.mpr, List.map_nil]
    intro ku hku
    obtain ⟨column, -, rfl⟩ := List.mem_map.mp hku
    simp only [Bool.and_eq_true, decide_eq_true_eq]
    exact fun hparts => h ⟨hparts.1, hparts.2.symm⟩

/-- The columns that the foreign keys of this name give to `pk`. -/
def namesakes (t : DeclaredTable) (constraintName : String) : List String :=
  if t.tableSchema = "public" ∧ t.accessible = true then
    (t.constraints.filter fun c => c.type = .foreignKey ∧ c.name = constraintName).flatMap (·.columns)
  else []

/-- The columns that the primary key gives to `pk` if it has this name. -/
def keyNamed (t : DeclaredTable) (constraintName : String) : List String :=
  if t.tableSchema = "public" ∧ t.accessible = true then
    (t.primaryKey.toList.filter fun k => k.name = constraintName).flatMap (·.columns)
  else []

theorem filter_keyColumnUsage (t : DeclaredTable) {constraintName : String}
    (hunique : t.tableSchema = "public" → ∀ c ∈ t.constraints, c.type = .unique →
      c.name ≠ constraintName) :
    (t.keyColumnUsage.filter fun ku =>
        constraintName = ku.constraintName && "public" = ku.tableSchema).map (·.columnName) =
      t.keyNamed constraintName ++ t.namesakes constraintName := by
  have hcollect : ∀ {α : Type} (xs : List α) (name : α → String) (columns : α → List String),
      ((xs.flatMap fun x => t.usage (name x) (columns x)).filter fun ku =>
          constraintName = ku.constraintName && "public" = ku.tableSchema).map (·.columnName) =
        if t.tableSchema = "public" then
          (xs.filter fun x => name x = constraintName).flatMap columns else [] := by
    intro α xs name columns
    induction xs with
    | nil => simp
    | cons x xs ih =>
      rw [List.flatMap_cons, List.filter_append, List.map_append, ih, filter_usage]
      by_cases hpublic : t.tableSchema = "public"
      · by_cases hname : name x = constraintName
        · simp [hpublic, hname]
        · simp [hpublic, hname, Ne.symm hname]
      · simp [hpublic]
  rw [keyColumnUsage, keyNamed, namesakes]
  by_cases haccess : t.accessible = true
  · rw [if_pos haccess, List.filter_append, List.map_append, hcollect, hcollect]
    by_cases hpublic : t.tableSchema = "public"
    · have hforeign : (t.constraints.filter (·.type ≠ .check)).filter (fun c => c.name = constraintName) =
          t.constraints.filter fun c => c.type = .foreignKey ∧ c.name = constraintName := by
        rw [List.filter_filter]
        apply List.filter_congr
        intro c hc
        have hne := hunique hpublic c hc
        cases htype : c.type with
        | unique => simp [hne htype]
        | foreignKey => simp
        | check => simp
      rw [if_pos hpublic, if_pos hpublic, if_pos ⟨hpublic, haccess⟩, if_pos ⟨hpublic, haccess⟩, hforeign]
    · simp [hpublic]
  · simp [haccess]

/-- The constraint of a table's primary key, as the role sees it. -/
def shownKey (t : DeclaredTable) : List TableConstraint :=
  if t.constraintsShown then
    t.primaryKey.toList.map fun k => ⟨t.tableSchema, t.tableName, k.name, "PRIMARY KEY"⟩
  else []

theorem filter_tableConstraints (t : DeclaredTable) (tableName : String) :
    (t.tableConstraints.filter fun tc => tc.constraintType = "PRIMARY KEY" &&
        tc.tableName = tableName && tc.tableSchema = "public") =
      if t.tableName = tableName ∧ t.tableSchema = "public" then t.shownKey else [] := by
  have hother : ∀ type : ConstraintType, type.text ≠ "PRIMARY KEY" := by
    intro type
    cases type <;> decide
  have hrest : (t.constraints.map fun c => (⟨t.tableSchema, t.tableName, c.name, c.type.text⟩ :
      TableConstraint)).filter (fun tc => tc.constraintType = "PRIMARY KEY" &&
        tc.tableName = tableName && tc.tableSchema = "public") = [] := by
    rw [List.filter_eq_nil_iff]
    intro tc htc
    obtain ⟨c, -, rfl⟩ := List.mem_map.mp htc
    simp [hother]
  rw [tableConstraints, shownKey]
  cases t.constraintsShown with
  | false => simp
  | true =>
    rw [if_pos rfl, if_pos rfl, List.filter_append, hrest, List.append_nil]
    cases t.primaryKey with
    | none => simp
    | some k => by_cases h : t.tableName = tableName ∧ t.tableSchema = "public" <;> simp [h]

end DeclaredTable

namespace DeclaredDatabase

variable (db : DeclaredDatabase) {t : DeclaredTable}

/-- The columns of the foreign keys of this name, on any table of the schema `public` that the role
may use. -/
def namesakes (constraintName : String) : List String :=
  db.tables.flatMap fun u => u.namesakes constraintName

/-- What the subquery gives for the table: the columns of its key and those of the namesakes, if the
role sees the key. -/
def keyUses (t : DeclaredTable) : List String :=
  if t.constraintsShown then
    t.primaryKey.toList.flatMap fun k => k.columns ++ db.namesakes k.name
  else []

/-- The key of the table, if it has one, is shown, and no foreign key of the same name has a column
of a name that the table has too. -/
def KeyReadable (t : DeclaredTable) : Prop :=
  ∀ k, t.primaryKey = some k → t.constraintsShown = true ∧
    ∀ name ∈ t.names, name ∉ db.namesakes k.name

variable {db}

theorem tables_nodup : db.tables.Nodup := List.Nodup.of_map _ db.distinct

theorem eq_of_name {u : DeclaredTable} (ht : t ∈ db.tables) (hu : u ∈ db.tables)
    (hname : u.tableName = t.tableName) (hschema : u.tableSchema = t.tableSchema) : u = t :=
  List.inj_on_of_nodup_map db.distinct hu ht (Prod.ext hschema hname)

/-- The columns of the keys of the constraint's name are those of the table's own key. -/
theorem flatMap_keyNamed (ht : t ∈ db.tables) (hpublic : t.tableSchema = "public")
    (haccess : t.accessible = true) {k : PrimaryKey} (hk : t.primaryKey = some k) :
    db.tables.flatMap (·.keyNamed k.name) = k.columns := by
  have hother : ∀ u ∈ db.tables, u ≠ t → u.keyNamed k.name = [] := by
    intro u hu hne
    rw [DeclaredTable.keyNamed]
    split
    · rename_i hparts
      have hnames := (db.indexes t ht k hk u hu (hparts.1.trans hpublic.symm)).1
      rw [List.flatMap_eq_nil_iff]
      intro l hl
      obtain ⟨hl, hname⟩ := List.mem_filter.mp hl
      exact absurd (hnames l (Option.mem_toList.mp hl) (of_decide_eq_true hname)) hne
    · rfl
  rw [Joins.flatMap_eq_of_unique tables_nodup ht hother, DeclaredTable.keyNamed,
    if_pos ⟨hpublic, haccess⟩, hk]
  simp

/-- The subquery `pk` for a table. -/
theorem pkColumns_perm (ht : t ∈ db.tables) (hpublic : t.tableSchema = "public") :
    (db.informationSchema.pkColumns t.tableName).Perm (db.keyUses t) := by
  have hconstraints : (db.informationSchema.tableConstraints.filter fun tc =>
      tc.constraintType = "PRIMARY KEY" && tc.tableName = t.tableName && tc.tableSchema = "public") =
      t.shownKey := by
    rw [informationSchema, List.filter_flatMap]
    have hother : ∀ u ∈ db.tables, u ≠ t → (u.tableConstraints.filter fun tc =>
        tc.constraintType = "PRIMARY KEY" && tc.tableName = t.tableName &&
          tc.tableSchema = "public") = [] := by
      intro u hu hne
      rw [DeclaredTable.filter_tableConstraints, if_neg]
      intro hsame
      exact hne (eq_of_name ht hu hsame.1 (hsame.2.trans hpublic.symm))
    rw [Joins.flatMap_eq_of_unique tables_nodup ht hother, DeclaredTable.filter_tableConstraints,
      if_pos ⟨rfl, hpublic⟩]
  rw [InformationSchema.pkColumns, Joins.filter_inner (p := fun tc : TableConstraint =>
    tc.constraintType = "PRIMARY KEY" && tc.tableName = t.tableName && tc.tableSchema = "public"),
    hconstraints, DeclaredTable.shownKey, keyUses]
  cases hshown : t.constraintsShown with
  | false => exact List.Perm.refl _
  | true =>
    cases hk : t.primaryKey with
    | none => exact List.Perm.refl _
    | some k =>
      have husage : ∀ u ∈ db.tables, (u.keyColumnUsage.filter fun ku =>
          k.name = ku.constraintName && "public" = ku.tableSchema).map (·.columnName) =
            u.keyNamed k.name ++ u.namesakes k.name := by
        intro u hu
        apply u.filter_keyColumnUsage
        intro hschema
        exact (db.indexes t ht k hk u hu (hschema.trans hpublic.symm)).2
      have hcolumns : ((db.informationSchema.keyColumnUsage.filter fun ku =>
          k.name = ku.constraintName && "public" = ku.tableSchema).map (·.columnName)) =
          db.tables.flatMap fun u => u.keyNamed k.name ++ u.namesakes k.name := by
        rw [informationSchema, List.filter_flatMap, List.map_flatMap]
        exact List.flatMap_congr husage
      have hperm := List.flatMap_append_perm db.tables (·.keyNamed k.name) (·.namesakes k.name)
      rw [flatMap_keyNamed ht hpublic (t.shown hshown) hk] at hperm
      rw [if_pos rfl, if_pos rfl]
      simp only [Option.toList_some, List.map_cons, List.map_nil, Joins.inner, List.flatMap_cons,
        List.flatMap_nil, List.append_nil, List.map_map, Function.comp_def, hpublic]
      rw [hcolumns]
      exact hperm.symm

theorem filter_columns (ht : t ∈ db.tables) (hpublic : t.tableSchema = "public")
    (haccess : t.accessible = true) :
    (db.informationSchema.columns.filter fun c =>
        c.tableName = t.tableName && c.tableSchema = "public") =
      t.columns.map fun a => ⟨t.tableSchema, t.tableName, a⟩ := by
  have hother : ∀ u ∈ db.tables, u ≠ t → (u.catalogueColumns.filter fun c =>
      c.tableName = t.tableName && c.tableSchema = "public") = [] := by
    intro u hu hne
    rw [DeclaredTable.catalogueColumns]
    split
    · rw [List.filter_eq_nil_iff]
      intro c hc
      obtain ⟨a, -, rfl⟩ := List.mem_map.mp hc
      intro hsame
      simp only [Bool.and_eq_true, decide_eq_true_eq] at hsame
      exact hne (eq_of_name ht hu hsame.1 (hsame.2.trans hpublic.symm))
    · rfl
  rw [informationSchema, List.filter_flatMap, Joins.flatMap_eq_of_unique tables_nodup ht hother,
    DeclaredTable.catalogueColumns, if_pos haccess, List.filter_eq_self]
  intro c hc
  obtain ⟨a, -, rfl⟩ := List.mem_map.mp hc
  simp [hpublic]

theorem columnQuery_eq (ht : t ∈ db.tables) (hpublic : t.tableSchema = "public")
    (haccess : t.accessible = true) :
    db.informationSchema.columnQuery t.tableName =
      (Joins.left (fun (a : ColumnInfo) pk => a.columnName = pk) t.columns
        (db.informationSchema.pkColumns t.tableName)).map fun r => (r.1, r.2.isSome) := by
  rw [InformationSchema.columnQuery, Joins.filter_left (p := fun c : CatalogueColumn =>
    c.tableName = t.tableName && c.tableSchema = "public"), filter_columns ht hpublic haccess,
    Joins.left_map, List.map_map]
  rfl

/-- How often the subquery names a column. -/
theorem countP_pkColumns (ht : t ∈ db.tables) (hpublic : t.tableSchema = "public")
    (name : String) :
    (db.informationSchema.pkColumns t.tableName).countP (fun pk => name = pk) =
      (db.keyUses t).count name := by
  rw [(pkColumns_perm ht hpublic).countP_eq, List.count]
  apply List.countP_congr
  intro pk _
  rw [decide_eq_true_eq, beq_iff_eq]
  exact eq_comm

/-- The query has one answer: the columns in order, each as often as the subquery names it, but at
least once. -/
theorem answer_eq (ht : t ∈ db.tables) (hpublic : t.tableSchema = "public")
    (haccess : t.accessible = true) {answer : List (ColumnInfo × Bool)}
    (hanswer : db.informationSchema.Answers t.tableName answer) :
    answer = t.columns.flatMap fun a => List.replicate (max 1 ((db.keyUses t).count a.columnName))
      (a, decide (0 < (db.keyUses t).count a.columnName)) := by
  have hquery := columnQuery_eq ht hpublic haccess
  rw [Joins.left_isSome Prod.mk] at hquery
  simp only [countP_pkColumns ht hpublic] at hquery
  have hmem : ∀ r ∈ db.informationSchema.columnQuery t.tableName, r.1 ∈ t.columns ∧
      r.2 = decide (0 < (db.keyUses t).count r.1.columnName) := by
    intro r hr
    rw [hquery] at hr
    obtain ⟨a, ha, hr⟩ := List.mem_flatMap.mp hr
    rw [List.eq_of_mem_replicate hr]
    exact ⟨ha, rfl⟩
  have hsorted : (db.informationSchema.columnQuery t.tableName).Pairwise
      fun x y => x.1.ordinalPosition ≤ y.1.ordinalPosition := by
    rw [hquery, List.pairwise_flatMap]
    constructor
    · intro a _
      exact List.pairwise_replicate.mpr (Or.inr (le_refl _))
    · refine (List.pairwise_map.mp t.ordered).imp ?_
      intro a b hab x hx y hy
      rw [List.eq_of_mem_replicate hx, List.eq_of_mem_replicate hy]
      exact hab.le
  rw [← hquery]
  refine hanswer.perm.eq_of_pairwise ?_ hanswer.sorted hsorted
  intro x y hx hy hle hge
  obtain ⟨hxmem, hxmark⟩ := hmem x (hanswer.perm.subset hx)
  obtain ⟨hymem, hymark⟩ := hmem y hy
  have hnodup : (t.columns.map (·.ordinalPosition)).Nodup := t.ordered.imp fun hlt => hlt.ne
  have hsame : x.1 = y.1 := List.inj_on_of_nodup_map hnodup hxmem hymem (le_antisymm hle hge)
  exact Prod.ext hsame (by rw [hxmark, hymark, hsame])

/-- Where the subquery names no column twice, every column is read once. -/
theorem names_nodup (ht : t ∈ db.tables) (hpublic : t.tableSchema = "public")
    (haccess : t.accessible = true) {answer : List (ColumnInfo × Bool)}
    (hanswer : db.informationSchema.Answers t.tableName answer)
    (honce : ∀ name ∈ t.names, (db.keyUses t).count name ≤ 1) :
    (answer.map (·.1.columnName)).Nodup := by
  have hcount : ∀ a ∈ t.columns, max 1 ((db.keyUses t).count a.columnName) = 1 := by
    intro a ha
    have hle := honce a.columnName (List.mem_map_of_mem ha)
    omega
  have hread : answer = t.columns.map fun a =>
      (a, decide (0 < (db.keyUses t).count a.columnName)) := by
    rw [answer_eq ht hpublic haccess hanswer, Joins.flatMap_replicate_eq_map_iff]
    · exact fun a ha => ⟨hcount a ha, rfl⟩
    · exact fun a _ => Nat.le_max_left 1 _
  rw [hread, List.map_map]
  exact t.named

/-- A column is named once more by the namesakes than by the key itself. -/
theorem count_keyUses {k : PrimaryKey} (hk : t.primaryKey = some k) (hshown : t.constraintsShown = true)
    (name : String) :
    (db.keyUses t).count name =
      (if name ∈ k.columns then 1 else 0) + (db.namesakes k.name).count name := by
  have hkey : k.columns.count name = if name ∈ k.columns then 1 else 0 := by
    split
    · rename_i hmem
      exact List.count_eq_one_of_mem k.nodup hmem
    · rename_i hmem
      exact List.count_eq_zero_of_not_mem hmem
  rw [keyUses, if_pos hshown, hk, Option.toList_some, List.flatMap_singleton, List.count_append, hkey]

/-- The subquery names just the columns of the key, each once, where the key is readable, and only
there. -/
theorem keyReadable_iff (t : DeclaredTable) :
    db.KeyReadable t ↔ ∀ a ∈ t.columns, (db.keyUses t).count a.columnName =
      if a.columnName ∈ t.keyColumns then 1 else 0 := by
  rw [KeyReadable, DeclaredTable.keyColumns]
  cases hk : t.primaryKey with
  | none =>
    have hnone : db.keyUses t = [] := by
      rw [keyUses, hk]
      exact ite_self []
    simp [hnone]
  | some k =>
    rw [Option.map_some, Option.getD_some]
    constructor
    · intro h a ha
      obtain ⟨hshown, happart⟩ := h k rfl
      have hnot := happart a.columnName (List.mem_map_of_mem ha)
      rw [count_keyUses hk hshown, List.count_eq_zero_of_not_mem hnot, Nat.add_zero]
    · intro h k' hk'
      cases hk'
      have hshown : t.constraintsShown = true := by
        by_contra hhidden
        obtain ⟨name, hname⟩ := List.exists_mem_of_ne_nil _ k.nonempty
        obtain ⟨a, ha, hcolumn⟩ := List.mem_map.mp (t.keyed k hk name hname)
        have hcount := h a ha
        rw [keyUses, if_neg hhidden, hcolumn, if_pos hname] at hcount
        cases hcount
      refine ⟨hshown, ?_⟩
      intro name hname
      obtain ⟨a, ha, rfl⟩ := List.mem_map.mp hname
      have hcount := h a ha
      rw [count_keyUses hk hshown] at hcount
      exact List.count_eq_zero.mp (by omega)

end DeclaredDatabase

private def infoOf (name : String) (position : Nat) : ColumnInfo where
  columnName := name
  ordinalPosition := position
  udtName := "int4"
  isNullable := "NO"
  columnDefault := none
  characterMaximumLength := none
  numericPrecision := some 32
  numericScale := some 0
  length _ _ := rfl
  scale _ _ := rfl

/-- Orders, whose key is named as the foreign key of their lines. -/
private def ordersTable : DeclaredTable where
  tableSchema := "public"
  tableName := "orders"
  columns := [infoOf "number" 1, infoOf "order_id" 2]
  primaryKey := some ⟨"order_key", ["number"], by decide, by decide⟩
  constraints := []
  accessible := true
  constraintsShown := true
  ordered := by decide
  named := by decide
  keyed := by
    intro k hk
    cases hk
    decide
  apart := by simp
  shown _ := rfl

private def linesTable : DeclaredTable where
  tableSchema := "public"
  tableName := "lines"
  columns := [infoOf "order_id" 1]
  primaryKey := none
  constraints := [⟨"order_key", .foreignKey, ["order_id"]⟩]
  accessible := true
  constraintsShown := true
  ordered := by decide
  named := by decide
  keyed := by simp
  apart := by simp
  shown _ := rfl

private def ordersDatabase : DeclaredDatabase where
  tables := [ordersTable, linesTable]
  distinct := by decide
  indexes := by
    intro t ht k hk u hu _
    rcases List.mem_pair.mp ht with rfl | rfl
    · cases hk
      rcases List.mem_pair.mp hu with rfl | rfl
      · exact ⟨fun _ _ _ => rfl, by simp [ordersTable]⟩
      · exact ⟨by simp [linesTable], by simp [linesTable]⟩
    · cases hk

end DataBridge.PostgresProvider
