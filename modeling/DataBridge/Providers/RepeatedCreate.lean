import DataBridge.Providers.PgCatalogue
import DataBridge.Providers.PgServer

namespace DataBridge.PostgresProvider

variable {R : Type}

/-- A table, and what the query for its columns answered. -/
structure SourceTable where
  declared : DeclaredTable
  answer : List (ColumnInfo × Bool)
  rowCount : Nat

namespace SourceTable

variable (t : SourceTable)

def name : String := t.declared.tableName

def rows : List ColumnRow := t.answer.map fun r => r.1.row r.2

/-- What `get_table_schema` returns for the table, in a database with these enum types. -/
def schema (enumMap : Dict String (List String)) : TableSchema :=
  readTableSchema t.name enumMap t.answer t.rowCount

/-- The schema that was read has a primary key. -/
def Keyed : Prop := ∃ r ∈ t.answer, r.2 = true

theorem primaryKeys_eq_nil_iff (enumMap : Dict String (List String)) :
    (t.schema enumMap).primaryKeys = [] ↔ ¬ t.Keyed := by
  change (((t.answer.map fun r => r.1.row r.2).map (columnSchema enumMap)).filter
    (·.isPrimaryKey)).map _ = [] ↔ _
  rw [List.map_eq_nil_iff, List.filter_eq_nil_iff, Keyed]
  constructor
  · intro h hkeyed
    obtain ⟨r, hr, hmark⟩ := hkeyed
    exact h _ (List.mem_map_of_mem (List.mem_map_of_mem hr)) hmark
  · intro h col hcol hmark
    obtain ⟨row, hrow, rfl⟩ := List.mem_map.mp hcol
    obtain ⟨r, hr, rfl⟩ := List.mem_map.mp hrow
    exact h ⟨r, hr, hmark⟩

end SourceTable

/-- A source database, with its tables as they were read. The enum types and the tables, whose rows
have types too, share one space of names. -/
structure SourceDatabase where
  catalogue : DeclaredDatabase
  enumMap : Dict String (List String)
  tables : List SourceTable
  declared : ∀ t ∈ tables, t.declared ∈ catalogue.tables
  readable : ∀ t ∈ tables, t.declared.tableSchema = "public" ∧ t.declared.accessible = true
  answers : ∀ t ∈ tables, catalogue.informationSchema.Answers t.name t.answer
  distinct : (tables.map (·.name)).Nodup
  apart : ∀ t ∈ tables, t.name ∉ enumMap.keys

/-- The first name for the index of the table's key is taken by the table itself, or that for the
index of another. -/
def SourceDatabase.Contested (src : SourceDatabase) (t : SourceTable) : Prop :=
  keyIndexName t.name 0 = t.name ∨ ∃ other ∈ src.tables, other.Keyed ∧ other.name ≠ t.name ∧
    keyIndexName other.name 0 = keyIndexName t.name 0

/-- The type name that `get_table_schema` makes of a `udt_name`. -/
def writtenType (dataType : String) : String := (pgTypeMap.lookup dataType).getD dataType

/-- The enum types of the table's columns that are not in the catalogue of every database. -/
def SourceTable.ownEnums (rules : PgRules R) (enumMap : Dict String (List String))
    (t : SourceTable) : List String :=
  (t.rows.map (·.dataType)).filter fun name => name ∈ enumMap.keys ∧ name ∉ rules.builtin

/-- The table that is created where there are no enum types but its own. -/
def SourceTable.created (rules : PgRules R) (enumMap : Dict String (List String))
    (t : SourceTable) : Option (PgTable R) :=
  ((t.schema enumMap).columns.mapM (rules.column (t.ownEnums rules enumMap) [])).map fun columns =>
    ⟨columns, (t.schema enumMap).primaryKeys⟩

/-- The enum types of the tables that are called. -/
def SourceDatabase.Made (src : SourceDatabase) (called : List SourceTable) (name : String) : Prop :=
  name ∈ src.enumMap.keys ∧ ∃ t ∈ called, ∃ r ∈ t.rows, r.dataType = name

/-- The enum types of the columns. -/
abbrev SourceDatabase.Uses (src : SourceDatabase) (name : String) : Prop := src.Made src.tables name

/-- The databases whose tables can be created over and over: every enum type of a column has a name
that stands for itself without quotes and labels that can be quoted, no such name is that of the
arrays of another type, every column has a type that is there once the enum types of its own
table are, no column is read twice, and no table has the name that the index of another may get. -/
structure SourceDatabase.Repeatable (rules : PgRules R) (src : SourceDatabase) : Prop where
  named : ∀ name, src.Uses name → rules.reads (writtenType name) = some (writtenType name)
  labels : ∀ name values, src.Uses name → src.enumMap.get? name = some values →
    values.all readableLabel = true
  arrays : ∀ name, src.Uses name → ∀ other, src.Uses other ∨ other ∈ src.tables.map (·.name) →
    name ≠ arrayName other
  known : ∀ t ∈ src.tables, (t.created rules src.enumMap).isSome = true
  once : ∀ t ∈ src.tables, ∀ name ∈ t.declared.names,
    (src.catalogue.keyUses t.declared).count name ≤ 1
  indexes : ∀ t ∈ src.tables, t.Keyed → ∀ other ∈ src.tables, other.name ≠ t.name →
    other.name ≠ keyIndexName t.name 0 ∧
      (src.Contested t → ∀ n, other.name ≠ keyIndexName t.name n)

theorem SourceDatabase.Repeatable.columns_nodup {rules : PgRules R} {src : SourceDatabase}
    (hsrc : src.Repeatable rules) {t : SourceTable} (ht : t ∈ src.tables) :
    ((t.schema src.enumMap).columns.map (·.name)).Nodup := by
  obtain ⟨hpublic, haccess⟩ := src.readable t ht
  have hnames := DeclaredDatabase.names_nodup (src.declared t ht) hpublic haccess
    (src.answers t ht) (hsrc.once t ht)
  have hread : (t.schema src.enumMap).columns.map (·.name) = t.answer.map (·.1.columnName) := by
    simp only [SourceTable.schema, readTableSchema, tableSchema, List.map_map]
    rfl
  rw [hread]
  exact hnames

/-- A name that stands for itself has no upper case, and is not changed by the table of types. -/
theorem writtenType_eq {rules : PgRules R} {name : String}
    (h : rules.reads (writtenType name) = some (writtenType name)) : writtenType name = name := by
  have hfolded : foldCase (writtenType name) = writtenType name := by
    unfold PgRules.reads at h
    split at h
    · cases h
    · split at h
      · exact Option.some.inj h
      · cases h
  have hupper : ∀ type ∈ pgTypeMap.map Prod.snd, foldCase type ≠ type := by decide
  by_cases hkey : name ∈ pgTypeMap.map Prod.fst
  · obtain ⟨type, htype, hlookup⟩ := lookup_of_mem hkey
    rw [writtenType, hlookup] at hfolded
    exact absurd hfolded (hupper type htype)
  · rw [writtenType, lookup_of_notMem hkey]
    rfl

namespace PgRules

variable (rules : PgRules R) (src : SourceDatabase)

/-- The enum types of the database are those `made`, as they are in the source. -/
def EnumsAre (made : String → Prop) (db : PgDatabase R) : Prop :=
  ∀ name labels, db.enums.get? name = some labels ↔
    name ∉ rules.builtin ∧ made name ∧ src.enumMap.get? name = some labels

/-- Every index is that of the key of a table `called`, under the first name unless that is
contested. -/
def IndexesAre (src : SourceDatabase) (called : List SourceTable) (db : PgDatabase R) : Prop :=
  ∀ i ∈ db.indexes, ∃ t ∈ called, t.Keyed ∧ ∃ n, i = keyIndexName t.name n ∧
    (n = 0 ∨ src.Contested t)

/-- The tables of the database are those `called`. -/
def TablesAre (called : List SourceTable) (db : PgDatabase R) : Prop :=
  ∀ name table, db.tables.get? name = some table ↔
    ∃ t ∈ called, t.name = name ∧ t.created rules src.enumMap = some table

variable {rules src}

theorem EnumsAre.mem_keys {made : String → Prop} {db : PgDatabase R}
    (h : rules.EnumsAre src made db) (name : String) :
    name ∈ db.enums.keys ↔ name ∉ rules.builtin ∧ made name ∧ name ∈ src.enumMap.keys := by
  rw [Dict.mem_keys_iff_exists, Dict.mem_keys_iff_exists]
  constructor
  · intro hget
    obtain ⟨labels, hlabels⟩ := hget
    obtain ⟨hbuiltin, hmade, hsource⟩ := (h name labels).mp hlabels
    exact ⟨hbuiltin, hmade, labels, hsource⟩
  · intro hparts
    obtain ⟨hbuiltin, hmade, labels, hsource⟩ := hparts
    exact ⟨labels, (h name labels).mpr ⟨hbuiltin, hmade, hsource⟩⟩

theorem EnumsAre.congr {made made' : String → Prop} {db : PgDatabase R}
    (h : rules.EnumsAre src made db) (hsame : ∀ name, name ∉ rules.builtin →
      name ∈ src.enumMap.keys → (made name ↔ made' name)) : rules.EnumsAre src made' db := by
  intro name labels
  rw [h name labels]
  constructor
  · intro hparts
    obtain ⟨hbuiltin, hmade, hsource⟩ := hparts
    have hkey := Dict.mem_keys_of_get? hsource
    exact ⟨hbuiltin, (hsame name hbuiltin hkey).mp hmade, hsource⟩
  · intro hparts
    obtain ⟨hbuiltin, hmade, hsource⟩ := hparts
    have hkey := Dict.mem_keys_of_get? hsource
    exact ⟨hbuiltin, (hsame name hbuiltin hkey).mpr hmade, hsource⟩

theorem EnumsAre.set {made : String → Prop} {db : PgDatabase R} (h : rules.EnumsAre src made db)
    {name : String} {values : List String} (hbuiltin : name ∉ rules.builtin)
    (hvalues : src.enumMap.get? name = some values) :
    rules.EnumsAre src (fun n => made n ∨ n = name)
      { db with enums := db.enums.set name values } := by
  intro n labels
  change (db.enums.set name values).get? n = some labels ↔ _
  rw [Dict.get?_set]
  by_cases hn : n = name
  · subst hn
    rw [if_pos rfl, hvalues]
    constructor
    · exact fun hlabels => ⟨hbuiltin, Or.inr rfl, hlabels⟩
    · exact fun hparts => hparts.2.2
  · rw [if_neg hn, h n labels]
    constructor
    · exact fun hparts => ⟨hparts.1, Or.inl hparts.2.1, hparts.2.2⟩
    · exact fun hparts => ⟨hparts.1, hparts.2.1.resolve_right hn, hparts.2.2⟩

theorem TablesAre.mem_keys {called : List SourceTable} {db : PgDatabase R}
    (h : rules.TablesAre src called db) (hsrc : src.Repeatable rules)
    (hcalled : ∀ t ∈ called, t ∈ src.tables) (name : String) :
    name ∈ db.tables.keys ↔ ∃ t ∈ called, t.name = name := by
  rw [Dict.mem_keys_iff_exists]
  constructor
  · intro hget
    obtain ⟨table, htable⟩ := hget
    obtain ⟨t, ht, hname, -⟩ := (h name table).mp htable
    exact ⟨t, ht, hname⟩
  · intro hparts
    obtain ⟨t, ht, hname⟩ := hparts
    obtain ⟨table, htable⟩ := Option.isSome_iff_exists.mp (hsrc.known t (hcalled t ht))
    exact ⟨table, (h name table).mpr ⟨t, ht, hname, htable⟩⟩

theorem TablesAre.congr {called : List SourceTable} {db db' : PgDatabase R}
    (h : rules.TablesAre src called db) (hsame : db'.tables = db.tables) :
    rules.TablesAre src called db' := by
  intro name table
  rw [hsame]
  exact h name table

/-- An enum type of the source is made once, however often it is asked for. -/
theorem execute_ensureEnum (hsrc : src.Repeatable rules) {made : String → Prop}
    {called : List SourceTable} {db : PgDatabase R} (henums : rules.EnumsAre src made db)
    (htables : rules.TablesAre src called db) (hmade : ∀ name, made name → src.Uses name)
    (hcalled : ∀ t ∈ called, t ∈ src.tables) {name : String} {values : List String}
    (huse : src.Uses name) (hvalues : src.enumMap.get? name = some values) :
    ∃ db', rules.execute db (.ensureEnum (writtenType name) values) = .ok db' ∧
      rules.EnumsAre src (fun n => made n ∨ n = name) db' ∧ db'.tables = db.tables ∧
      db'.indexes = db.indexes := by
  have hreads := hsrc.named name huse
  have hwritten := writtenType_eq hreads
  have hlabels := hsrc.labels name values huse hvalues
  rw [hwritten] at hreads ⊢
  have htable : name ∉ db.tables.keys := by
    intro hmem
    obtain ⟨t, ht, hname⟩ := (htables.mem_keys hsrc hcalled name).mp hmem
    exact src.apart t (hcalled t ht) (hname ▸ huse.1)
  have harray : name ∉ (db.enums.keys ++ db.tables.keys).map arrayName := by
    intro hmem
    obtain ⟨other, hother, heq⟩ := List.mem_map.mp hmem
    refine hsrc.arrays name huse other ?_ heq.symm
    rcases List.mem_append.mp hother with henum | hrow
    · exact Or.inl (hmade other ((henums.mem_keys other).mp henum).2.1)
    · obtain ⟨t, ht, hname⟩ := (htables.mem_keys hsrc hcalled other).mp hrow
      exact Or.inr (List.mem_map.mpr ⟨t, hcalled t ht, hname⟩)
  have htypnames : name ∈ rules.typnames db ↔ name ∈ rules.builtin ∨ name ∈ db.enums.keys := by
    rw [typnames, List.mem_append, List.mem_append, List.mem_append]
    tauto
  rw [execute, hreads]
  dsimp only
  rw [if_neg (not_not.mpr hlabels)]
  by_cases hthere : name ∈ rules.typnames db
  · rw [if_pos hthere]
    refine ⟨db, rfl, henums.congr fun n hbuiltin hkey => ?_, rfl, rfl⟩
    constructor
    · exact Or.inl
    · intro hcases
      rcases hcases with hn | hn
      · exact hn
      · subst hn
        have hmem := (htypnames.mp hthere).resolve_left hbuiltin
        exact ((henums.mem_keys n).mp hmem).2.1
  · have hboth : name ∉ rules.builtin ∧ name ∉ db.enums.keys := by
      rw [htypnames, not_or] at hthere
      exact hthere
    have hfree : ¬ (name ∈ db.enums.keys ∨ name ∈ db.tables.keys) := by
      rw [not_or]
      exact ⟨hboth.2, htable⟩
    rw [if_neg hthere, if_neg hfree]
    exact ⟨_, rfl, henums.set hboth.1 hvalues, rfl, rfl⟩

/-- The enum types of a table are made, whichever were there before. -/
theorem ensureEnums (hsrc : src.Repeatable rules) {called : List SourceTable}
    (hcalled : ∀ t ∈ called, t ∈ src.tables) {rows : List ColumnRow}
    (hrows : ∀ r ∈ rows, r.dataType ∈ src.enumMap.keys → src.Uses r.dataType)
    {made : String → Prop} {db : PgDatabase R} (henums : rules.EnumsAre src made db)
    (htables : rules.TablesAre src called db) (hmade : ∀ name, made name → src.Uses name) :
    ∃ db', ((rows.map (columnSchema src.enumMap)).filterMap enumStatement).foldlM rules.execute db =
        .ok db' ∧
      rules.EnumsAre src (fun n => made n ∨ ∃ r ∈ rows, r.dataType = n) db' ∧
      db'.tables = db.tables ∧ db'.indexes = db.indexes := by
  induction rows generalizing made db with
  | nil =>
    refine ⟨db, rfl, henums.congr fun n _ _ => ?_, rfl, rfl⟩
    simp
  | cons r rest ih =>
    have hrest : ∀ r ∈ rest, r.dataType ∈ src.enumMap.keys → src.Uses r.dataType :=
      fun r hr => hrows r (List.mem_cons_of_mem _ hr)
    cases hget : src.enumMap.get? r.dataType with
    | none =>
      have hskip : enumStatement (columnSchema src.enumMap r) = none := by
        rw [enumStatement, columnSchema, hget]
        rfl
      obtain ⟨db', hrun, henums', hrelations⟩ := ih hrest henums htables hmade
      refine ⟨db', ?_, henums'.congr fun n _ hkey => ?_, hrelations⟩
      · rw [List.map_cons, List.filterMap_cons, hskip]
        exact hrun
      · have hne : r.dataType ≠ n := by
          intro heq
          exact (Dict.get?_eq_none _ _).mp hget (heq ▸ hkey)
        simp [hne]
    | some values =>
      have hensure : enumStatement (columnSchema src.enumMap r) =
          some (.ensureEnum (writtenType r.dataType) values) := by
        rw [enumStatement, columnSchema, hget]
        rfl
      have hkey := Dict.mem_keys_of_get? hget
      have huse := hrows r List.mem_cons_self hkey
      obtain ⟨db₁, hfirst, henums₁, htables₁, hindexes₁⟩ :=
        execute_ensureEnum hsrc henums htables hmade hcalled huse hget
      have hmade₁ : ∀ name, (made name ∨ name = r.dataType) → src.Uses name := by
        intro name hname
        rcases hname with hname | hname
        · exact hmade name hname
        · exact hname ▸ huse
      obtain ⟨db', hrun, henums', htables', hindexes'⟩ :=
        ih hrest henums₁ (htables.congr htables₁) hmade₁
      refine ⟨db', ?_, henums'.congr fun n _ _ => ?_, htables'.trans htables₁,
        hindexes'.trans hindexes₁⟩
      · rw [List.map_cons, List.filterMap_cons, hensure, List.foldlM_cons, hfirst]
        exact hrun
      · rw [List.exists_mem_cons_iff, or_assoc]
        exact or_congr_right (or_congr_left eq_comm)

/-- A type that a table's own enum types are enough for is the same where there are more. -/
theorem typeOf_of_own {own enums tables : List String} (hsub : ∀ name ∈ own, name ∈ enums)
    (harrays : ∀ name ∈ enums, ∀ other ∈ own, name ≠ arrayName other) {t : ColumnType}
    {type : PgType R} (h : rules.typeOf own [] t = some type) :
    rules.typeOf enums tables t = some type := by
  unfold typeOf at h ⊢
  cases hresolve : rules.resolve t with
  | some builtin =>
    rw [hresolve] at h
    exact h
  | none =>
    rw [hresolve] at h
    dsimp only at h ⊢
    by_cases hsize : t.size = .unsized
    · rw [if_pos hsize] at h ⊢
      cases hreads : rules.reads t.name with
      | none =>
        rw [hreads] at h
        exact h
      | some name =>
        rw [hreads] at h
        dsimp only at h ⊢
        by_cases hown : name ∈ own
        · rw [if_pos hown] at h
          rw [if_pos (hsub name hown)]
          exact h
        · rw [if_neg hown] at h
          by_cases harray : name ∈ own.map arrayName
          · rw [if_pos harray] at h
            obtain ⟨other, hother, hname⟩ := List.mem_map.mp harray
            have hnot : name ∉ enums := fun hmem => harrays name hmem other hother hname.symm
            have hmore : name ∈ enums.map arrayName :=
              List.mem_map.mpr ⟨other, hsub other hother, hname⟩
            rw [if_neg hnot, if_pos hmore]
            exact h
          · rw [if_neg harray, if_neg List.not_mem_nil] at h
            cases h
    · rw [if_neg hsize] at h
      cases h

theorem mapM_column_of_own {own enums tables : List String} (hsub : ∀ name ∈ own, name ∈ enums)
    (harrays : ∀ name ∈ enums, ∀ other ∈ own, name ≠ arrayName other)
    {cols : List ColumnSchema} {columns : List (PgColumn R)}
    (h : cols.mapM (rules.column own []) = some columns) :
    cols.mapM (rules.column enums tables) = some columns := by
  rw [ExceptList.mapM_some_iff] at h ⊢
  refine h.imp fun col c hcol => ?_
  obtain ⟨type, htype, hcolumn⟩ := Option.map_eq_some_iff.mp hcol
  rw [column, typeOf_of_own hsub harrays htype, ← hcolumn]
  rfl

theorem made_uses {called : List SourceTable} (hcalled : ∀ t ∈ called, t ∈ src.tables)
    {name : String} (h : src.Made called name) : src.Uses name := by
  obtain ⟨hkey, t, ht, hr⟩ := h
  exact ⟨hkey, t, hcalled t ht, hr⟩

theorem made_snoc (called : List SourceTable) (t : SourceTable) {name : String}
    (hkey : name ∈ src.enumMap.keys) :
    src.Made (called ++ [t]) name ↔ src.Made called name ∨ ∃ r ∈ t.rows, r.dataType = name := by
  constructor
  · intro h
    obtain ⟨-, t', ht', hr⟩ := h
    rcases List.mem_append.mp ht' with hold | hnew
    · exact Or.inl ⟨hkey, t', hold, hr⟩
    · exact Or.inr (List.mem_singleton.mp hnew ▸ hr)
  · intro h
    rcases h with ⟨-, t', ht', hr⟩ | hr
    · exact ⟨hkey, t', List.mem_append_left _ ht', hr⟩
    · exact ⟨hkey, t, List.mem_append_right _ List.mem_cons_self, hr⟩

/-- A name of the database is that of one table. -/
theorem eq_of_name_eq {t t' : SourceTable} (ht : t ∈ src.tables) (ht' : t' ∈ src.tables)
    (hname : t.name = t'.name) : t = t' :=
  List.inj_on_of_nodup_map src.distinct ht ht' hname

/-- A table that was called is there already. -/
theorem TablesAre.snoc_of_mem {called : List SourceTable} {db : PgDatabase R}
    (h : rules.TablesAre src called db) {t : SourceTable} (ht : t ∈ called) :
    rules.TablesAre src (called ++ [t]) db := by
  have hmem : ∀ t', t' ∈ called ++ [t] ↔ t' ∈ called := by
    intro t'
    rw [List.mem_append, List.mem_singleton]
    exact or_iff_left_of_imp fun heq => heq ▸ ht
  intro name table
  rw [h name table]
  exact exists_congr fun t' => and_congr_left fun _ => (hmem t').symm

/-- A table that is created is there with those that were. -/
theorem TablesAre.snoc_set {called : List SourceTable} {db : PgDatabase R}
    (h : rules.TablesAre src called db) {t : SourceTable}
    (hall : ∀ t' ∈ called ++ [t], t' ∈ src.tables) {table : PgTable R}
    (htable : t.created rules src.enumMap = some table) :
    rules.TablesAre src (called ++ [t]) { db with tables := db.tables.set t.name table } := by
  have hnew : t ∈ called ++ [t] := List.mem_append_right _ List.mem_cons_self
  intro name table'
  change (db.tables.set t.name table).get? name = some table' ↔ _
  rw [Dict.get?_set]
  by_cases hname : name = t.name
  · subst hname
    rw [if_pos rfl]
    constructor
    · exact fun heq => ⟨t, hnew, rfl, htable.trans heq⟩
    · intro hparts
      obtain ⟨t', ht', hname, hcreated⟩ := hparts
      rw [eq_of_name_eq (hall t' ht') (hall t hnew) hname, htable] at hcreated
      exact hcreated
  · rw [if_neg hname, h name table']
    refine exists_congr fun t' => and_congr_left fun hparts => ?_
    rw [List.mem_append, List.mem_singleton]
    refine (or_iff_left ?_).symm
    intro heq
    exact hname (hparts.1.symm.trans (congrArg (·.name) heq))

/-- Once the enum types of a table are made, its columns are what they are in a database with no
other types. -/
theorem mapM_column_of_called (hsrc : src.Repeatable rules) {called : List SourceTable}
    {t : SourceTable} (hall : ∀ t' ∈ called ++ [t], t' ∈ src.tables) {db : PgDatabase R}
    (henums : rules.EnumsAre src (src.Made (called ++ [t])) db) {columns : List (PgColumn R)}
    (h : (t.schema src.enumMap).columns.mapM (rules.column (t.ownEnums rules src.enumMap) []) =
      some columns) :
    (t.schema src.enumMap).columns.mapM (rules.column db.enums.keys db.tables.keys) =
      some columns := by
  have hown : ∀ name ∈ t.ownEnums rules src.enumMap, name ∈ db.enums.keys ∧ src.Uses name := by
    intro name hmem
    obtain ⟨htype, hkeys⟩ := List.mem_filter.mp hmem
    obtain ⟨hkey, hbuiltin⟩ := of_decide_eq_true hkeys
    obtain ⟨r, hr, hname⟩ := List.mem_map.mp htype
    have hmade : src.Made (called ++ [t]) name :=
      (made_snoc called t hkey).mpr (Or.inr ⟨r, hr, hname⟩)
    exact ⟨(henums.mem_keys name).mpr ⟨hbuiltin, hmade, hkey⟩, made_uses hall hmade⟩
  have harrays : ∀ name ∈ db.enums.keys, ∀ other ∈ t.ownEnums rules src.enumMap,
      name ≠ arrayName other := by
    intro name hname other hother
    have huse := made_uses hall ((henums.mem_keys name).mp hname).2.1
    exact hsrc.arrays name huse other (Or.inl (hown other hother).2)
  exact mapM_column_of_own (fun name hname => (hown name hname).1) harrays h

/-- No table of the source has the name of an index of another. -/
theorem IndexesAre.name_notMem (hsrc : src.Repeatable rules) {called : List SourceTable}
    (hcalled : ∀ t ∈ called, t ∈ src.tables) {db : PgDatabase R}
    (h : IndexesAre src called db) {t : SourceTable} (ht : t ∈ src.tables)
    (hnew : ∀ t' ∈ called, t'.name ≠ t.name) : t.name ∉ db.indexes := by
  intro hmem
  obtain ⟨t', ht', hkeyed, n, hn, hfirst⟩ := h t.name hmem
  obtain ⟨hzero, hall⟩ := hsrc.indexes t' (hcalled t' ht') hkeyed t ht (hnew t' ht').symm
  rcases hfirst with rfl | hcontested
  · exact hzero hn
  · exact hall hcontested n hn

/-- The name for the index of a new table is the first one unless that is contested. -/
theorem IndexesAre.freeIndex (hsrc : src.Repeatable rules) {called : List SourceTable}
    (hcalled : ∀ t ∈ called, t ∈ src.tables) {db : PgDatabase R} (h : IndexesAre src called db)
    (htables : rules.TablesAre src called db) {t : SourceTable} (ht : t ∈ src.tables)
    (hkeyed : t.Keyed) (hnew : ∀ t' ∈ called, t'.name ≠ t.name) :
    freeIndex (t.name :: db.relations) t.name = 0 ∨ src.Contested t := by
  by_cases htaken : keyIndexName t.name 0 ∈ t.name :: db.relations
  · refine Or.inr ?_
    rcases List.mem_cons.mp htaken with hself | hmem
    · exact Or.inl hself
    rcases List.mem_append.mp hmem with htable | hindex
    · obtain ⟨t', ht', hname⟩ := (htables.mem_keys hsrc hcalled _).mp htable
      exact absurd hname (hsrc.indexes t ht hkeyed t' (hcalled t' ht') (hnew t' ht')).1
    · obtain ⟨t', ht', hkeyed', n, hn, -⟩ := h _ hindex
      cases n with
      | zero => exact Or.inr ⟨t', hcalled t' ht', hkeyed', hnew t' ht', hn.symm⟩
      | succ n => exact absurd hn.symm (keyIndexName_succ_ne t'.name t.name n)
  · exact Or.inl (freeIndex_eq_zero htaken)

theorem IndexesAre.snoc {called : List SourceTable} {db : PgDatabase R}
    (h : IndexesAre src called db) (t : SourceTable) : IndexesAre src (called ++ [t]) db := by
  intro i hi
  obtain ⟨t', ht', hrest⟩ := h i hi
  exact ⟨t', List.mem_append_left _ ht', hrest⟩

/-- The statement that creates the table, once its enum types are there. -/
theorem execute_createTable (hsrc : src.Repeatable rules) {called : List SourceTable}
    (hcalled : ∀ t ∈ called, t ∈ src.tables) {t : SourceTable} (ht : t ∈ src.tables)
    {db : PgDatabase R} (henums : rules.EnumsAre src (src.Made (called ++ [t])) db)
    (htables : rules.TablesAre src called db) (hindexes : IndexesAre src called db) :
    ∃ db', rules.execute db (.createTable (t.schema src.enumMap)) = .ok db' ∧
      db'.enums = db.enums ∧ rules.TablesAre src (called ++ [t]) db' ∧
      IndexesAre src (called ++ [t]) db' := by
  have hall : ∀ t' ∈ called ++ [t], t' ∈ src.tables := by
    intro t' ht'
    rcases List.mem_append.mp ht' with hold | hnew
    · exact hcalled t' hold
    · exact List.mem_singleton.mp hnew ▸ ht
  rw [execute]
  change ∃ db', (if t.name ∈ db.relations then _ else _) = _ ∧ _
  by_cases hthere : t.name ∈ db.tables.keys
  · obtain ⟨t', ht', hname⟩ := (htables.mem_keys hsrc hcalled t.name).mp hthere
    have hsame : t' = t := eq_of_name_eq (hcalled t' ht') ht hname
    subst hsame
    have hrelation : t'.name ∈ db.relations := List.mem_append_left _ hthere
    rw [if_pos hrelation]
    exact ⟨db, rfl, rfl, htables.snoc_of_mem ht', hindexes.snoc t'⟩
  · have hnew : ∀ t' ∈ called, t'.name ≠ t.name := by
      intro t' ht' hname
      exact hthere ((htables.mem_keys hsrc hcalled t.name).mpr ⟨t', ht', hname⟩)
    have hrelation : t.name ∉ db.relations := by
      intro hmem
      rcases List.mem_append.mp hmem with htable | hindex
      · exact hthere htable
      · exact hindexes.name_notMem hsrc hcalled ht hnew hindex
    have hfree : t.name ∉ db.enums.keys := fun hmem =>
      src.apart t ht ((henums.mem_keys t.name).mp hmem).2.2
    obtain ⟨table, htable⟩ := Option.isSome_iff_exists.mp (hsrc.known t ht)
    obtain ⟨columns, hcolumns, hpair⟩ := Option.map_eq_some_iff.mp htable
    rw [if_neg hrelation, if_neg (not_not.mpr (hsrc.columns_nodup ht))]
    change ∃ db', (if t.name ∈ db.enums.keys then _ else _) = _ ∧ _
    rw [if_neg hfree, mapM_column_of_called hsrc hall henums hcolumns]
    subst hpair
    refine ⟨_, rfl, rfl, (htables.snoc_set hall htable).congr rfl, ?_⟩
    intro i hi
    by_cases hkeyed : t.Keyed
    · have hkeys : (t.schema src.enumMap).primaryKeys ≠ [] := fun hnil =>
        (t.primaryKeys_eq_nil_iff src.enumMap).mp hnil hkeyed
      dsimp only at hi
      rw [if_neg hkeys] at hi
      rcases List.mem_append.mp hi with hold | hlast
      · exact hindexes.snoc t i hold
      · refine ⟨t, List.mem_append_right _ List.mem_cons_self, hkeyed, _,
          List.mem_singleton.mp hlast, ?_⟩
        exact hindexes.freeIndex hsrc hcalled htables ht hkeyed hnew
    · dsimp only at hi
      rw [if_pos ((t.primaryKeys_eq_nil_iff src.enumMap).mpr hkeyed)] at hi
      exact hindexes.snoc t i hi

/-- One more call of `create_table`. -/
theorem createTable_ok (hsrc : src.Repeatable rules) {called : List SourceTable}
    (hcalled : ∀ t ∈ called, t ∈ src.tables) {t : SourceTable} (ht : t ∈ src.tables)
    {db : PgDatabase R} (henums : rules.EnumsAre src (src.Made called) db)
    (htables : rules.TablesAre src called db) (hindexes : IndexesAre src called db) :
    ∃ db', rules.createTable db (t.schema src.enumMap) = .ok db' ∧
      rules.EnumsAre src (src.Made (called ++ [t])) db' ∧
      rules.TablesAre src (called ++ [t]) db' ∧ IndexesAre src (called ++ [t]) db' := by
  have hrows : ∀ r ∈ t.rows, r.dataType ∈ src.enumMap.keys → src.Uses r.dataType :=
    fun r hr hkey => ⟨hkey, t, ht, r, hr, rfl⟩
  obtain ⟨db₁, hfirst, henums₁, htables₁, hindexes₁⟩ := ensureEnums hsrc hcalled hrows henums
    htables fun name => made_uses hcalled
  have hmade : rules.EnumsAre src (src.Made (called ++ [t])) db₁ :=
    henums₁.congr fun name _ hkey => (made_snoc called t hkey).symm
  have hkept : IndexesAre src called db₁ := by
    intro i hi
    exact hindexes i (hindexes₁ ▸ hi)
  obtain ⟨db', hlast, henums', htables', hindexes'⟩ :=
    execute_createTable hsrc hcalled ht hmade (htables.congr htables₁) hkept
  refine ⟨db', ?_, ?_, htables', hindexes'⟩
  · rw [createTable, statements, List.foldlM_append]
    change Except.bind ((((t.rows.map (columnSchema src.enumMap)).filterMap
      enumStatement)).foldlM rules.execute db) _ = _
    rw [hfirst]
    change (rules.execute db₁ _ >>= fun db₂ => pure db₂) = _
    rw [hlast]
    rfl
  · intro name labels
    rw [henums']
    exact hmade name labels

/-- Whatever tables are called and how often, no call raises, and what there is then depends only on
which tables were called. -/
theorem createTables_ok (hsrc : src.Repeatable rules) {calls : List SourceTable}
    (hcalls : ∀ t ∈ calls, t ∈ src.tables) :
    ∃ db, rules.createTables (calls.map (·.schema src.enumMap)) = .ok db ∧
      rules.EnumsAre src (src.Made calls) db ∧ rules.TablesAre src calls db := by
  rw [createTables, List.foldlM_map]
  have hrun : ∃ db, calls.foldlM (fun db t => rules.createTable db (t.schema src.enumMap)) {} =
      .ok db ∧ rules.EnumsAre src (src.Made calls) db ∧ rules.TablesAre src calls db ∧
      IndexesAre src calls db := by
    refine ExceptList.foldlM_ok (fun called db => rules.EnumsAre src (src.Made called) db ∧
      rules.TablesAre src called db ∧ IndexesAre src called db) calls ?_
      (List.nil_append calls).symm ⟨?_, ?_, ?_⟩
    · intro called t later db hall h
      have hbefore : ∀ t ∈ called, t ∈ src.tables :=
        fun t ht => hcalls t (hall ▸ List.mem_append_left _ ht)
      have hnow : t ∈ src.tables := hcalls t (hall ▸ List.mem_append_right _ List.mem_cons_self)
      exact createTable_ok hsrc hbefore hnow h.1 h.2.1 h.2.2
    · intro name labels
      simp [SourceDatabase.Made]
    · intro name table
      simp
    · intro i hi
      cases hi
  obtain ⟨db, hdb, henums, htables, -⟩ := hrun
  exact ⟨db, hdb, henums, htables⟩

end PgRules

/-- Two databases with the same enum types and the same tables. -/
structure PgDatabase.Same (db db' : PgDatabase R) : Prop where
  enums : ∀ name, db.enums.get? name = db'.enums.get? name
  tables : ∀ name, db.tables.get? name = db'.tables.get? name

/-- A few words and types of PostgreSQL. -/
private def someRules : PgRules String where
  reserved := ["all", "user", "table"]
  builtin := ["int4", "text"]
  resolve t := if t.name ∈ ["INTEGER", "TEXT"] ∧ t.size = .unsized then some t.name else none

private def columnOf (name udtName : String) (position : Nat) : ColumnInfo where
  columnName := name
  ordinalPosition := position
  udtName := udtName
  isNullable := "YES"
  columnDefault := none
  characterMaximumLength := none
  numericPrecision := none
  numericScale := none
  length _ _ := rfl
  scale _ _ := rfl

private def peopleTable : DeclaredTable where
  tableSchema := "public"
  tableName := "people"
  columns := [columnOf "id" "int4" 1, columnOf "mood" "mood" 2]
  primaryKey := some ⟨"people_pkey", ["id"], by decide, by decide⟩
  constraints := []
  accessible := true
  constraintsShown := true
  ordered := by decide
  named := by decide
  keyed := by
    intro k hk c hc
    cases hk
    rw [List.mem_singleton.mp hc]
    exact List.mem_cons_self
  apart := by simp
  shown _ := rfl

private def diaryTable : DeclaredTable where
  tableSchema := "public"
  tableName := "diary"
  columns := [columnOf "before" "mood" 1, columnOf "after" "mood" 2]
  primaryKey := none
  constraints := [⟨"diary_after", .check, ["after"]⟩]
  accessible := true
  constraintsShown := true
  ordered := by decide
  named := by decide
  keyed := by simp
  apart := by simp
  shown _ := rfl

private def people : SourceTable :=
  ⟨peopleTable, [(columnOf "id" "int4" 1, true), (columnOf "mood" "mood" 2, false)], 2⟩

private def diary : SourceTable :=
  ⟨diaryTable, [(columnOf "before" "mood" 1, false), (columnOf "after" "mood" 2, false)], 9⟩

private def moods : SourceDatabase where
  catalogue := {
    tables := [peopleTable, diaryTable]
    distinct := by decide
    indexes := by
      intro t ht k hk u hu _
      rcases List.mem_pair.mp ht with rfl | rfl
      · cases hk
        rcases List.mem_pair.mp hu with rfl | rfl
        · exact ⟨fun _ _ _ => rfl, by simp [peopleTable]⟩
        · exact ⟨by simp [diaryTable], by simp [diaryTable]⟩
      · cases hk }
  enumMap := Dict.ofList [("mood", ["happy", "sad"])]
  tables := [people, diary]
  declared := by simp [people, diary]
  readable := by decide
  answers := by
    intro t ht
    rcases List.mem_pair.mp ht with rfl | rfl
    · exact ⟨List.Perm.refl _, by decide⟩
    · exact ⟨List.Perm.refl _, by decide⟩
  distinct := by decide
  apart := by decide

private theorem moods_uses {name : String} (h : moods.Uses name) : name = "mood" :=
  List.mem_singleton.mp h.1

private theorem moods_repeatable : moods.Repeatable someRules where
  named name h := by
    rw [moods_uses h]
    decide
  labels name values h hvalues := by
    rw [moods_uses h] at hvalues
    cases hvalues
    decide
  arrays name h other hother := by
    rw [moods_uses h]
    rcases hother with huse | htable
    · rw [moods_uses huse]
      decide
    · revert other
      decide
  known := by decide
  once := by decide
  indexes := by
    intro t ht hkeyed other hother hne
    rcases List.mem_pair.mp ht with rfl | rfl
    · rcases List.mem_pair.mp hother with rfl | rfl
      · exact absurd rfl hne
      · refine ⟨by decide, ?_⟩
        rintro (hself | ⟨third, hthird, hkeyed', hne', -⟩)
        · exact absurd hself (by decide)
        · rcases List.mem_pair.mp hthird with rfl | rfl
          · exact absurd rfl hne'
          · obtain ⟨r, hr, hmark⟩ := hkeyed'
            exact absurd hmark (by revert r; decide)
    · obtain ⟨r, hr, hmark⟩ := hkeyed
      exact absurd hmark (by revert r; decide)

private def membersTable : DeclaredTable where
  tableSchema := "public"
  tableName := "members"
  columns := [columnOf "mood" "Mood" 1]
  primaryKey := none
  constraints := []
  accessible := true
  constraintsShown := true
  ordered := by decide
  named := by decide
  keyed := by simp
  apart := by simp
  shown _ := rfl

private def members : SourceTable := ⟨membersTable, [(columnOf "mood" "Mood" 1, false)], 2⟩

private def capitalMoods : SourceDatabase where
  catalogue := {
    tables := [membersTable]
    distinct := by decide
    indexes := by simp [membersTable] }
  enumMap := Dict.ofList [("Mood", ["happy", "sad"])]
  tables := [members]
  declared := by simp [members]
  readable := by decide
  answers := by
    intro t ht
    rw [List.mem_singleton.mp ht]
    exact ⟨List.Perm.refl _, by decide⟩
  distinct := by decide
  apart := by decide

end DataBridge.PostgresProvider
