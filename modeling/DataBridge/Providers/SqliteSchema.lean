import DataBridge.Framework.Keeps
import DataBridge.Providers.SqliteProvider

namespace DataBridge

/-- A row of `PRAGMA table_info`, without its cid. -/
structure TableInfoRow where
  name : String
  type : String
  notnull : Bool
  dfltValue : Option String
  pk : Nat
  deriving DecidableEq, Repr

/-- The answer of `PRAGMA table_info`; SQLite has no two columns of one name in a table. -/
structure TableInfo where
  rows : List TableInfoRow
  nodup : (rows.map (·.name)).Nodup

/-- A column of `CREATE TABLE`, as written. -/
structure ColumnDefinition where
  name : String
  type : String
  notNull : Bool
  primaryKey : Bool
  deriving DecidableEq, Repr

/-- What stands between the brackets of `CREATE TABLE`: the columns, and the columns of the
`PRIMARY KEY` clause, which is not there when it has none. -/
structure CreateTable where
  columns : List ColumnDefinition
  primaryKey : List String
  deriving DecidableEq, Repr

namespace CreateTable

def columnText (c : ColumnDefinition) : String :=
  let nullClause := if c.notNull then " NOT NULL" else ""
  let pkClause := if c.primaryKey then " PRIMARY KEY" else ""
  s!"{Dialect.sqlite.quote c.name} {c.type}{nullClause}{pkClause}"

def text (written : CreateTable) : String :=
  let pkClause := if written.primaryKey = [] then "" else
    s!", PRIMARY KEY ({PyText.commaJoin (written.primaryKey.map Dialect.sqlite.quote)})"
  PyText.commaJoin (written.columns.map columnText) ++ pkClause

/-- The place of a column in the key, counted from 1; 0 where it is not part of it. -/
def keyPlace (clause : List String) (c : ColumnDefinition) : Nat :=
  if c.primaryKey then 1 else if c.name ∈ clause then clause.idxOf c.name + 1 else 0

/-- The table as written: the type text, the NOT NULL flag and the key of every column. -/
def asWritten (written : CreateTable) : List TableInfoRow :=
  written.columns.map fun c =>
    { name := c.name, type := c.type, notnull := c.notNull, dfltValue := none
      pk := keyPlace written.primaryKey c }

/-- SQLite reports the table of this statement as written. -/
def ReportedBy (tableInfo : String → TableInfo) (written : CreateTable) : Prop :=
  (tableInfo written.text).rows = written.asWritten

end CreateTable

/-- The database as a new connection finds it. -/
def SqliteConnection.reopened (c : SqliteConnection) : SqliteConnection := { committed := c.committed }

namespace SQLiteProvider

def sqliteAffinityMap : List (String × String) :=
  [("integer", "INTEGER"), ("int", "INTEGER"), ("tinyint", "SMALLINT"), ("smallint", "SMALLINT"),
    ("mediumint", "INTEGER"), ("bigint", "BIGINT"), ("real", "FLOAT"), ("float", "FLOAT"),
    ("double", "DOUBLE"), ("numeric", "DECIMAL"), ("decimal", "DECIMAL"), ("text", "TEXT"),
    ("varchar", "VARCHAR"), ("character", "VARCHAR"), ("char", "CHAR"), ("clob", "TEXT"),
    ("blob", "BLOB"), ("boolean", "BOOLEAN"), ("date", "DATE"), ("datetime", "DATETIME"),
    ("timestamp", "TIMESTAMP"), ("json", "JSON")]

def colType (type : String) : String :=
  PyText.strip (PyText.before '(' (PyText.lower type))

/-- The `data_type` of a column whose declared type is `type`. -/
def mapped (type : String) : String :=
  (sqliteAffinityMap.lookup (colType type)).getD (if type = "" then "TEXT" else PyText.upper type)

def columnSchema (row : TableInfoRow) : ColumnSchema where
  name := row.name
  dataType := mapped row.type
  isNullable := !row.notnull
  isPrimaryKey := row.pk ≠ 0
  default := row.dfltValue

-- What `PRAGMA table_info` answers for a table with this definition.
variable (tableInfo : String → TableInfo)

/-- An awaited query leaves the connection as it is. -/
def query (answer : SqliteConnection → Except Exc Unit) : Call Exc SqliteSession Unit :=
  SqliteSession.await (fun conn => (answer conn).map fun _ => conn) (fun _ conn => conn)

/-- An absent table has no rows in `PRAGMA table_info`. -/
def infoRows (conn : SqliteConnection) (tableName : String) : List TableInfoRow :=
  match conn.tables.get? tableName with
  | some table => (tableInfo table.definition).rows
  | none => []

/-- `PRAGMA table_info`. -/
def executeTableInfo (tableName : String) : Call Exc SqliteSession (List TableInfoRow) := do
  query fun _ => .ok ()
  Call.read fun s => infoRows tableInfo s.conn tableName

def getRowCount (tableName : String) : Call Exc SqliteSession Nat := do
  query fun conn => if tableName ∈ conn.tables.keys then .ok () else .error (noSuchTable tableName)
  Call.read fun s => (((s.conn.tables.get? tableName).map (·.rows)).getD []).length

/-- The names of the rows that are part of the key. -/
def pks (rows : List TableInfoRow) : List String := (rows.filter (·.pk ≠ 0)).map (·.name)

/-- What `get_table_schema` makes of the rows and the row count. -/
def tableSchema (tableName : String) (rows : List TableInfoRow) (rowCount : Nat) :
    TableSchema where
  name := tableName
  columns := rows.map columnSchema
  primaryKeys := pks rows
  rowCount := rowCount

def getTableSchema (tableName : String) : Call Exc SqliteSession TableSchema := do
  let rows ← executeTableInfo tableInfo tableName
  let rowCount ← getRowCount tableName
  pure (tableSchema tableName rows rowCount)

/-- The statement of `create_table`. -/
def createStatement (schema : TableSchema) : CreateTable where
  columns := schema.columns.map fun col =>
    { name := col.name, type := col.dataType, notNull := !col.isNullable
      primaryKey := col.isPrimaryKey && decide (schema.primaryKeys.length = 1) }
  primaryKey := if schema.primaryKeys.length > 1 then schema.primaryKeys else []

/-- The text that `create_table` sends is the text of that statement. -/
theorem createStatement_text (schema : TableSchema) :
    (createStatement schema).text = tableDefinition schema := by
  rw [CreateTable.text, tableDefinition]
  congr 1
  · simp only [createStatement, List.map_map]
    congr 1
    apply List.map_congr_left
    intro col _
    cases h : col.isNullable <;> simp [CreateTable.columnText, columnDef, h]
  · simp only [createStatement]
    by_cases h : schema.primaryKeys.length > 1
    · have hne : schema.primaryKeys ≠ [] := List.ne_nil_of_length_pos (by omega)
      simp only [if_pos h, if_neg hne]
    · simp only [if_neg h, if_true]

/-- Every type the table of affinities gives is read back as itself. -/
theorem mapped_affinity : ∀ e ∈ sqliteAffinityMap, mapped e.2 = e.2 := by decide

theorem colType_upper {type : String} (h : PyText.isAscii type) :
    colType (PyText.upper type) = colType type := by
  rw [colType, colType, PyText.lower_upper h]

/-- A `data_type` that is declared as it stands is read back as itself. -/
theorem mapped_mapped {type : String} (h : PyText.isAscii type) :
    mapped (mapped type) = mapped type := by
  cases hl : sqliteAffinityMap.lookup (colType type) with
  | some known =>
    have hknown : mapped type = known := by rw [mapped, hl, Option.getD_some]
    have hmem : (colType type, known) ∈ sqliteAffinityMap := by
      obtain ⟨before, after, hsplit, -⟩ := List.lookup_eq_some_iff.mp hl
      rw [hsplit]
      simp
    rw [hknown]
    exact mapped_affinity (colType type, known) hmem
  | none =>
    by_cases hempty : type = ""
    · subst hempty
      decide
    · have hupper : mapped type = PyText.upper type := by
        rw [mapped, hl, Option.getD_none, if_neg hempty]
      have hne : PyText.upper type ≠ "" := fun he => hempty ((PyText.upper_eq_empty_iff h).mp he)
      rw [hupper, mapped, colType_upper h, hl, Option.getD_none, if_neg hne, PyText.upper_upper]

end SQLiteProvider

theorem CreateTable.keyPlace_ne_zero (clause : List String) (c : ColumnDefinition) :
    keyPlace clause c ≠ 0 ↔ c.primaryKey = true ∨ c.name ∈ clause := by
  rw [keyPlace]
  split
  · rename_i h
    simp [h]
  · rename_i h
    split
    · rename_i hmem
      simp [hmem]
    · rename_i hmem
      simp [h, hmem]

namespace SQLiteProvider

open CreateTable (keyPlace keyPlace_ne_zero)

/-- The row of a column that `create_table` wrote for a table with this key. -/
def createdRow (key : List String) (row : TableInfoRow) : TableInfoRow where
  name := row.name
  type := mapped row.type
  notnull := row.notnull
  dfltValue := none
  pk := keyPlace (if key.length > 1 then key else [])
    { name := row.name, type := mapped row.type, notNull := row.notnull
      primaryKey := decide (row.pk ≠ 0) && decide (key.length = 1) }

theorem asWritten_createStatement (tableName : String) (rows : List TableInfoRow) (n : Nat) :
    (createStatement (tableSchema tableName rows n)).asWritten =
      rows.map (createdRow (pks rows)) := by
  rw [CreateTable.asWritten, createStatement, tableSchema]
  simp only [List.map_map]
  apply List.map_congr_left
  intro row _
  simp [columnSchema, createdRow]

/-- No two columns of a schema that was read have one name. -/
theorem nodup_names (info : TableInfo) (tableName : String) (n : Nat) :
    ((tableSchema tableName info.rows n).columns.map (·.name)).Nodup := by
  rw [tableSchema, List.map_map]
  exact info.nodup

theorem mem_pks {info : TableInfo} {row : TableInfoRow} (hrow : row ∈ info.rows) :
    row.name ∈ pks info.rows ↔ row.pk ≠ 0 := by
  rw [pks, List.mem_map]
  constructor
  · intro h
    obtain ⟨other, hother, hname⟩ := h
    obtain ⟨hmem, hpk⟩ := List.mem_filter.mp hother
    have hsame : other = row := List.inj_on_of_nodup_map info.nodup hmem hrow hname
    rw [← hsame]
    exact of_decide_eq_true hpk
  · intro hpk
    exact ⟨row, List.mem_filter.mpr ⟨hrow, decide_eq_true hpk⟩, rfl⟩

/-- The key clause and the inline `PRIMARY KEY` put back in the key what was in it. -/
theorem createdRow_pk {info : TableInfo} {row : TableInfoRow} (hrow : row ∈ info.rows) :
    (createdRow (pks info.rows) row).pk ≠ 0 ↔ row.pk ≠ 0 := by
  have hkey := mem_pks hrow
  change keyPlace _ _ ≠ 0 ↔ _
  rw [keyPlace_ne_zero, Bool.and_eq_true, decide_eq_true_eq, decide_eq_true_eq]
  constructor
  · intro h
    rcases h with hinline | hclause
    · exact hinline.1
    · split at hclause
      · exact hkey.mp hclause
      · cases hclause
  · intro hpk
    have hmem := hkey.mpr hpk
    have hpos := List.length_pos_of_mem hmem
    by_cases hone : (pks info.rows).length = 1
    · exact Or.inl ⟨hpk, hone⟩
    · rw [if_pos (by omega)]
      exact Or.inr hmem

theorem columnSchema_createdRow {info : TableInfo} {row : TableInfoRow} (hrow : row ∈ info.rows)
    (hascii : PyText.isAscii row.type) :
    columnSchema (createdRow (pks info.rows) row) =
      { columnSchema row with default := none } := by
  have hpk := createdRow_pk hrow
  have htype := mapped_mapped hascii
  rw [columnSchema, columnSchema]
  simp only [hpk]
  simp only [createdRow, htype]

@[simp] theorem createdRow_name (key : List String) (row : TableInfoRow) :
    (createdRow key row).name = row.name := by
  rw [createdRow]

@[simp] theorem createdRow_notnull (key : List String) (row : TableInfoRow) :
    (createdRow key row).notnull = row.notnull := by
  rw [createdRow]

theorem pks_created (info : TableInfo) :
    pks (info.rows.map (createdRow (pks info.rows))) = pks info.rows := by
  have hfilter : info.rows.filter ((fun row => decide (row.pk ≠ 0)) ∘
      createdRow (pks info.rows)) = info.rows.filter fun row => decide (row.pk ≠ 0) := by
    apply List.filter_congr
    intro row hrow
    rw [Function.comp_apply, decide_eq_decide]
    exact createdRow_pk hrow
  conv_lhs => rw [pks, List.filter_map, hfilter, List.map_map]
  rw [pks]
  apply List.map_congr_left
  intro row _
  rw [Function.comp_apply, createdRow_name]

/-- What is read back of the created table: the same but for the defaults. -/
theorem tableSchema_created (tableName : String) (info : TableInfo) (n m : Nat)
    (hascii : ∀ row ∈ info.rows, PyText.isAscii row.type) :
    tableSchema tableName (createStatement (tableSchema tableName info.rows n)).asWritten m =
      { name := tableName
        columns := info.rows.map fun row => { columnSchema row with default := none }
        primaryKeys := pks info.rows
        rowCount := m } := by
  have hcolumns : (info.rows.map (createdRow (pks info.rows))).map columnSchema =
      info.rows.map fun row => { columnSchema row with default := none } := by
    rw [List.map_map]
    apply List.map_congr_left
    exact fun row hrow => columnSchema_createdRow hrow (hascii row hrow)
  rw [asWritten_createStatement, tableSchema, hcolumns, pks_created]

/-- An awaited call that returns was carried out. -/
theorem wp_await {carriedOut : SqliteConnection → Except Exc SqliteConnection}
    {interrupted : Nat → SqliteConnection → SqliteConnection} (s : SqliteSession) :
    Call.wp (SqliteSession.await carriedOut interrupted)
      (Post.onReturn fun _ s' => carriedOut s.conn = .ok s'.conn) s := by
  rw [Call.wp, SqliteSession.await]
  cases s.script.head?.join with
  | some fault => trivial
  | none =>
    dsimp only
    cases hd : carriedOut s.conn with
    | error exc => trivial
    | ok d => rfl

theorem wp_query {answer : SqliteConnection → Except Exc Unit} (s : SqliteSession) :
    Call.wp (query answer)
      (Post.onReturn fun _ s' => s'.conn = s.conn ∧ answer s.conn = .ok ()) s := by
  refine Call.wp_mono (wp_await s) ?_ (fun _ _ _ => trivial) (fun _ _ => trivial)
  intro _ s' h
  cases ha : answer s.conn with
  | error exc =>
    rw [ha] at h
    cases h
  | ok u =>
    rw [ha] at h
    exact ⟨(Except.ok.inj h).symm, rfl⟩

theorem wp_executeTableInfo (tableInfo : String → TableInfo) (tableName : String)
    (s : SqliteSession) :
    Call.wp (executeTableInfo tableInfo tableName) (Post.onReturn fun rows s' =>
      s'.conn = s.conn ∧ rows = infoRows tableInfo s.conn tableName) s := by
  apply Call.wp_seq (wp_query s)
  intro _ s' h
  exact ⟨h.1, congrArg (infoRows tableInfo · tableName) h.1⟩

theorem wp_getRowCount (tableName : String) (s : SqliteSession) :
    Call.wp (getRowCount tableName) (Post.onReturn fun n _ =>
      ∃ table, s.conn.tables.get? tableName = some table ∧ n = table.rows.length) s := by
  apply Call.wp_seq (wp_query s)
  intro _ s' h
  obtain ⟨hconn, hpresent⟩ := h
  have hmem : tableName ∈ s.conn.tables.keys := by
    by_contra habsent
    rw [if_neg habsent] at hpresent
    cases hpresent
  obtain ⟨table, htable⟩ := (Dict.mem_keys_iff_exists _ _).mp hmem
  refine ⟨table, htable, ?_⟩
  change (((s'.conn.tables.get? tableName).map (·.rows)).getD []).length = _
  rw [hconn, htable]
  rfl

/-- A schema that is read is the one of the table the connection sees. -/
theorem wp_getTableSchema (tableInfo : String → TableInfo) (tableName : String)
    (s : SqliteSession) :
    Call.wp (getTableSchema tableInfo tableName) (Post.onReturn fun schema _ =>
      ∃ table, s.conn.tables.get? tableName = some table ∧
        schema = tableSchema tableName (tableInfo table.definition).rows table.rows.length) s := by
  apply Call.wp_seq (wp_executeTableInfo tableInfo tableName s)
  intro rows s' h
  obtain ⟨hconn, hrows⟩ := h
  apply Call.wp_seq (wp_getRowCount tableName s')
  intro n _ hcount
  obtain ⟨table, htable, hn⟩ := hcount
  rw [hconn] at htable
  refine ⟨table, htable, ?_⟩
  rw [hrows, infoRows, htable, hn]

/-- Without an interruption the schema of a table that is there is read. -/
theorem getTableSchema_of_present (tableInfo : String → TableInfo) {conn : SqliteConnection}
    {tableName : String} {table : SqliteTable} (h : conn.tables.get? tableName = some table) :
    getTableSchema tableInfo tableName ⟨conn, []⟩ = (.returned (tableSchema tableName
      (tableInfo table.definition).rows table.rows.length), ⟨conn, []⟩) := by
  have hinfo : executeTableInfo tableInfo tableName ⟨conn, []⟩ =
      (.returned (tableInfo table.definition).rows, ⟨conn, []⟩) := by
    have hread : infoRows tableInfo conn tableName = (tableInfo table.definition).rows := by
      rw [infoRows, h]
    rw [← hread]
    rfl
  have hpresent : tableName ∈ conn.tables.keys := Dict.mem_keys_of_get? h
  have hcount : getRowCount tableName ⟨conn, []⟩ = (.returned table.rows.length, ⟨conn, []⟩) := by
    have hquery : query (fun conn => if tableName ∈ conn.tables.keys then .ok ()
        else .error (noSuchTable tableName)) ⟨conn, []⟩ = (.returned (), ⟨conn, []⟩) := by
      rw [query, SqliteSession.await]
      simp [if_pos hpresent, Except.map]
    rw [getRowCount, Call.bind_of_returned hquery]
    change (Outcome.returned (((conn.tables.get? tableName).map (·.rows)).getD []).length, _) = _
    rw [h]
    rfl
  rw [getTableSchema, Call.bind_of_returned hinfo, Call.bind_of_returned hcount]
  rfl

end SQLiteProvider

/-- The table is there, committed and as the connection sees it, with this definition. -/
structure SqliteConnection.Defines (tableName definition : String) (c : SqliteConnection) :
    Prop where
  committed : (c.committed.get? tableName).map (·.definition) = some definition
  tables : (c.tables.get? tableName).map (·.definition) = some definition

namespace SqliteConnection

variable {tableName definition : String} {c : SqliteConnection}

/-- New rows in any table do not change the definition. -/
theorem Defines.write (h : c.Defines tableName definition) {t : String} {table : SqliteTable}
    (ht : c.tables.get? t = some table) (rows : List Row) :
    (c.dml (·.set t { table with rows := rows })).Defines tableName definition := by
  refine ⟨h.committed, ?_⟩
  change ((c.tables.set t { table with rows := rows }).get? tableName).map (·.definition) = _
  rw [Dict.get?_set]
  split
  · rename_i hsame
    have hdefinition := h.tables
    rw [hsame, ht] at hdefinition
    exact hdefinition
  · exact h.tables

theorem Defines.ddl {f : SqliteTables → SqliteTables} (h : c.Defines tableName definition)
    (hf : ∀ tables : SqliteTables, (tables.get? tableName).map (·.definition) = some definition →
      ((f tables).get? tableName).map (·.definition) = some definition) :
    (c.ddl f).Defines tableName definition := by
  obtain ⟨committed, transaction⟩ := c
  cases transaction with
  | none => exact ⟨hf committed h.committed, hf committed h.committed⟩
  | some tables => exact ⟨h.committed, hf tables h.tables⟩

theorem Defines.commit (h : c.Defines tableName definition) :
    c.commit.Defines tableName definition :=
  ⟨h.tables, h.tables⟩

end SqliteConnection

/-- Whatever interrupts it, an awaited call keeps what both its endings keep. -/
theorem SqliteSession.keeps_await {I : SqliteConnection → Prop}
    {carriedOut : SqliteConnection → Except Exc SqliteConnection}
    {interrupted : Nat → SqliteConnection → SqliteConnection}
    (hc : ∀ c d, I c → carriedOut c = .ok d → I d) (hi : ∀ row c, I c → I (interrupted row c)) :
    Call.Keeps (fun s : SqliteSession => I s.conn) (SqliteSession.await carriedOut interrupted) := by
  intro s hs
  rw [Call.wp, SqliteSession.await]
  cases s.script.head?.join with
  | some fault => exact hi fault.row s.conn hs
  | none =>
    cases hd : carriedOut s.conn with
    | error exc => exact hs
    | ok d => exact hc s.conn d hs hd

namespace SQLiteProvider

open SqliteSession (keeps_await)
open SqliteConnection (Defines)

variable {tableName definition : String}

theorem keeps_commit : Call.Keeps (fun s => s.conn.Defines tableName definition) commit := by
  apply keeps_await
  · intro c d hc hd
    cases hd
    exact hc.commit
  · exact fun _ _ hc => hc

theorem keeps_executeCreate (t newDefinition : String) :
    Call.Keeps (fun s => s.conn.Defines tableName definition) (executeCreate t newDefinition) := by
  apply keeps_await
  · intro c d hc hd
    cases hd
    apply hc.ddl
    intro tables h
    split
    · exact h
    · rename_i habsent
      rw [Dict.get?_set]
      split
      · rename_i hsame
        rw [← hsame, ← Dict.get?_eq_none] at habsent
        rw [habsent] at h
        cases h
      · exact h
  · exact fun _ _ hc => hc

theorem keeps_executeDelete (t : String) :
    Call.Keeps (fun s => s.conn.Defines tableName definition) (executeDelete t) := by
  apply keeps_await
  · intro c d hc hd
    cases ht : c.tables.get? t with
    | none =>
      rw [ht] at hd
      cases hd
    | some table =>
      rw [ht] at hd
      cases hd
      exact hc.write ht []
  · exact fun _ _ hc => hc

theorem keeps_executemany (ignores : String → List Row → Row → Bool) (q : Insert) :
    Call.Keeps (fun s => s.conn.Defines tableName definition) (executemany ignores q) := by
  apply keeps_await
  · intro c d hc hd
    cases ht : c.tables.get? q.table with
    | none =>
      rw [ht] at hd
      cases hd
    | some table =>
      rw [ht] at hd
      cases hd
      exact hc.write ht _
  · intro row c hc
    rw [interrupted]
    cases ht : c.tables.get? q.table with
    | none => exact hc
    | some table => exact hc.write ht _

/-- No write changes the definition of a table, however it ends. -/
theorem keeps_operation (ignores : String → List Row → Row → Bool) (op : Operation) :
    Call.Keeps (fun s => s.conn.Defines tableName definition) (op.call ignores) := by
  cases op with
  | insertBatch t rows columns =>
    have hbatch : Call.Keeps (fun s => s.conn.Defines tableName definition)
        (insertBatch ignores t rows columns) := by
      cases rows with
      | nil => exact Call.keeps_pure 0
      | cons first rest =>
        exact (keeps_executemany ignores _).bind fun _ =>
          keeps_commit.bind fun _ => Call.keeps_pure _
    exact hbatch.bind fun _ => Call.keeps_pure ()
  | createTable schema => exact (keeps_executeCreate schema.name _).bind fun _ => keeps_commit
  | truncateTable t => exact (keeps_executeDelete t).bind fun _ => keeps_commit

theorem defines_after (ignores : String → List Row → Row → Bool) (ops : List Operation)
    {s : SqliteSession} (h : s.conn.Defines tableName definition) :
    (after ignores ops s).conn.Defines tableName definition := by
  induction ops generalizing s with
  | nil => exact h
  | cons op ops ih =>
    apply ih
    exact Call.keeps_snd (keeps_operation ignores op) h

/-- A table that is created where there was none has the definition of the statement. -/
theorem wp_createTable (schema : TableSchema) {s : SqliteSession}
    (habsent : schema.name ∉ s.conn.tables.keys) :
    Call.wp (createTable schema) (Post.onReturn fun _ s' =>
      s'.conn.Defines schema.name (tableDefinition schema)) s := by
  apply Call.wp_seq (wp_await s)
  intro _ s' hcreated
  refine Call.wp_mono (wp_await s') ?_ (fun _ _ _ => trivial) (fun _ _ => trivial)
  intro _ s'' hcommitted
  have hconn : s'.conn.tables = s.conn.tables.set schema.name ⟨tableDefinition schema, []⟩ := by
    rw [← Except.ok.inj hcreated, SqliteConnection.tables_ddl, if_neg habsent]
  have htable : (s'.conn.tables.get? schema.name).map (·.definition) =
      some (tableDefinition schema) := by
    rw [hconn, Dict.get?_set, if_pos rfl]
    rfl
  have hdurable : s'.conn.commit.Defines schema.name (tableDefinition schema) := ⟨htable, htable⟩
  have hlast : s'.conn.commit = s''.conn := Except.ok.inj hcommitted
  change s''.conn.Defines schema.name (tableDefinition schema)
  rw [← hlast]
  exact hdurable

end SQLiteProvider

end DataBridge
