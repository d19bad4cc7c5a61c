import DataBridge.Framework.Respects
import DataBridge.Providers.Statement

namespace DataBridge

/-- A table as SQLite has it: what `CREATE TABLE` said of it, and its rows. -/
structure SqliteTable where
  definition : String
  rows : List Row
  deriving DecidableEq

abbrev SqliteTables := Dict String SqliteTable

/-- A connection: the committed tables, and the tables of the transaction that is open, if any. -/
structure SqliteConnection where
  committed : SqliteTables
  transaction : Option SqliteTables := none
  deriving DecidableEq

namespace SqliteConnection

/-- The tables as the connection itself sees them. -/
def tables (c : SqliteConnection) : SqliteTables := c.transaction.getD c.committed

/-- The rows of a table that everyone sees; none where the table is absent. -/
def visible (c : SqliteConnection) (tableName : String) : List Row :=
  ((c.committed.get? tableName).map (·.rows)).getD []

/-- `INSERT` and `DELETE` open a transaction unless one is open. -/
def dml (f : SqliteTables → SqliteTables) (c : SqliteConnection) : SqliteConnection :=
  { c with transaction := some (f c.tables) }

/-- DDL joins an open transaction, but opens none. -/
def ddl (f : SqliteTables → SqliteTables) (c : SqliteConnection) : SqliteConnection :=
  match c.transaction with
  | some tables => { c with transaction := some (f tables) }
  | none => { c with committed := f c.committed }

def commit (c : SqliteConnection) : SqliteConnection := { committed := c.tables }

end SqliteConnection

/-- The exception a call raises, and for `executemany` the row at which it does. -/
structure StatementFault where
  row : Nat
  exc : Exc
  deriving DecidableEq

/-- A connection in use, and what the next awaited calls raise. -/
structure SqliteSession where
  conn : SqliteConnection
  script : List (Option StatementFault)

/-- An awaited call of the connection: it is carried out, or interrupted by the next fault. -/
def SqliteSession.await (carriedOut : SqliteConnection → Except Exc SqliteConnection)
    (interrupted : Nat → SqliteConnection → SqliteConnection) : Call Exc SqliteSession Unit := fun s =>
  match s.script.head?.join with
  | some fault =>
    (.raised fault.exc, { conn := interrupted fault.row s.conn, script := s.script.tail })
  | none =>
    match carriedOut s.conn with
    | .ok conn => (.returned (), { conn := conn, script := s.script.tail })
    | .error exc => (.raised exc, { s with script := s.script.tail })

namespace SQLiteProvider

-- Whether a table with this definition and these rows skips a row under `OR IGNORE`.
variable (ignores : String → List Row → Row → Bool)

def insertOrIgnore (definition : String) (rows : List Row) (row : Row) : List Row :=
  if ignores definition rows row then rows else rows ++ [row]

def addRows (table : SqliteTable) (rows : List Row) : SqliteTable :=
  { table with rows := rows.foldl (insertOrIgnore ignores table.definition) table.rows }

def noSuchTable (tableName : String) : Exc := ⟨.other, s!"no such table: {tableName}"⟩

/-- The connection after `executemany` raised at a record: nothing takes back the ones before. -/
def interrupted (q : Insert) (row : Nat) (conn : SqliteConnection) : SqliteConnection :=
  match conn.tables.get? q.table with
  | some table => conn.dml (·.set q.table (addRows ignores table (q.rows.take row)))
  | none => conn

def executemany (q : Insert) : Call Exc SqliteSession Unit :=
  SqliteSession.await
    (fun conn => match conn.tables.get? q.table with
      | some table => .ok (conn.dml (·.set q.table (addRows ignores table q.rows)))
      | none => .error (noSuchTable q.table))
    (interrupted ignores q)

/-- `CREATE TABLE IF NOT EXISTS`. -/
def executeCreate (tableName definition : String) : Call Exc SqliteSession Unit :=
  SqliteSession.await
    (fun conn => .ok (conn.ddl fun tables =>
      if tableName ∈ tables.keys then tables else tables.set tableName ⟨definition, []⟩))
    (fun _ conn => conn)

/-- `DELETE FROM`. -/
def executeDelete (tableName : String) : Call Exc SqliteSession Unit :=
  SqliteSession.await
    (fun conn => match conn.tables.get? tableName with
      | some table => .ok (conn.dml (·.set tableName { table with rows := [] }))
      | none => .error (noSuchTable tableName))
    (fun _ conn => conn)

def commit : Call Exc SqliteSession Unit :=
  SqliteSession.await (fun conn => .ok conn.commit) (fun _ conn => conn)

def columnDef (schema : TableSchema) (col : ColumnSchema) : String :=
  let nullClause := if col.isNullable then "" else " NOT NULL"
  let pkClause := if col.isPrimaryKey ∧ schema.primaryKeys.length = 1 then " PRIMARY KEY" else ""
  s!"{Dialect.sqlite.quote col.name} {col.dataType}{nullClause}{pkClause}"

/-- What stands between the brackets of `CREATE TABLE`. -/
def tableDefinition (schema : TableSchema) : String :=
  let pkClause := if schema.primaryKeys.length > 1 then
      s!", PRIMARY KEY ({PyText.commaJoin (schema.primaryKeys.map Dialect.sqlite.quote)})"
    else ""
  PyText.commaJoin (schema.columns.map (columnDef schema)) ++ pkClause

def createTable (schema : TableSchema) : Call Exc SqliteSession Unit := do
  executeCreate schema.name (tableDefinition schema)
  commit

def insertBatch (tableName : String) (rows : List Row) (columns : Option (List String)) :
    Call Exc SqliteSession Nat :=
  match rows with
  | [] => pure 0
  | first :: _ => do
    executemany ignores (Insert.ofRows tableName columns first rows)
    commit
    pure rows.length

def truncateTable (tableName : String) : Call Exc SqliteSession Unit := do
  executeDelete tableName
  commit

/-- One write on the connection. -/
inductive Operation where
  | insertBatch (tableName : String) (rows : List Row) (columns : Option (List String))
  | createTable (schema : TableSchema)
  | truncateTable (tableName : String)

def Operation.call : Operation → Call Exc SqliteSession Unit
  | .insertBatch tableName rows columns => do
    let _ ← SQLiteProvider.insertBatch ignores tableName rows columns
    pure ()
  | .createTable schema => SQLiteProvider.createTable schema
  | .truncateTable tableName => SQLiteProvider.truncateTable tableName

/-- The session after a sequence of operations; the caller goes on when one raises. -/
def after (ops : List Operation) (s : SqliteSession) : SqliteSession :=
  ops.foldl (fun s op => (op.call ignores s).2) s

/-- The batch that raises at row `row` leaves nothing behind: whatever follows, everyone sees the
rows that would be there without it. -/
def LeavesNothing (conn : SqliteConnection) (tableName : String) (rows : List Row)
    (columns : Option (List String)) (row : Nat) : Prop :=
  ∀ exc later ops t,
    (after ignores ops
      (insertBatch ignores tableName rows columns ⟨conn, some ⟨row, exc⟩ :: later⟩).2).conn.visible t =
      (after ignores ops ⟨conn, later⟩).conn.visible t

end SQLiteProvider

/-- The connection sees the same tables, and everyone sees the same rows. -/
structure SqliteConnection.SameView (c c' : SqliteConnection) : Prop where
  tables : c.tables = c'.tables
  visible : ∀ t, c.visible t = c'.visible t

namespace SqliteConnection

variable {c c' : SqliteConnection}

theorem SameView.dml (h : SameView c c') (f : SqliteTables → SqliteTables) :
    SameView (c.dml f) (c'.dml f) :=
  ⟨congrArg f h.tables, h.visible⟩

theorem SameView.commit (h : SameView c c') : SameView c.commit c'.commit := by
  refine ⟨h.tables, ?_⟩
  intro t
  change ((c.tables.get? t).map (·.rows)).getD [] = ((c'.tables.get? t).map (·.rows)).getD []
  rw [h.tables]

/-- A new table shows no rows, so it does not matter who sees it. -/
theorem visible_ddl_create (c : SqliteConnection) (tableName definition t : String) :
    (c.ddl fun tables =>
      if tableName ∈ tables.keys then tables
      else tables.set tableName ⟨definition, []⟩).visible t = c.visible t := by
  obtain ⟨committed, transaction⟩ := c
  cases transaction with
  | some tables => rfl
  | none =>
    rw [visible, visible]
    simp only [ddl]
    split
    · rfl
    · rename_i hnew
      rw [Dict.get?_set]
      split
      · rename_i ht
        rw [ht, (committed.get?_eq_none tableName).mpr hnew]
        rfl
      · rfl

theorem tables_ddl (c : SqliteConnection) (f : SqliteTables → SqliteTables) :
    (c.ddl f).tables = f c.tables := by
  obtain ⟨committed, transaction⟩ := c
  cases transaction <;> rfl

theorem SameView.ddl_create (h : SameView c c') (tableName definition : String) :
    SameView
      (c.ddl fun tables => if tableName ∈ tables.keys then tables
        else tables.set tableName ⟨definition, []⟩)
      (c'.ddl fun tables => if tableName ∈ tables.keys then tables
        else tables.set tableName ⟨definition, []⟩) := by
  constructor
  · rw [tables_ddl, tables_ddl, h.tables]
  · intro t
    rw [visible_ddl_create, visible_ddl_create, h.visible]

end SqliteConnection

/-- Two sessions with the same faults ahead that nothing but their open transactions tells apart. -/
structure SqliteSession.SameView (s s' : SqliteSession) : Prop where
  conn : s.conn.SameView s'.conn
  script : s.script = s'.script

open Call (Respects)

theorem SqliteSession.respects_await {f : SqliteConnection → Except Exc SqliteConnection}
    {i : Nat → SqliteConnection → SqliteConnection}
    (hf : ∀ c c', c.SameView c' → (∃ exc, f c = .error exc ∧ f c' = .error exc) ∨
      ∃ d d', f c = .ok d ∧ f c' = .ok d' ∧ d.SameView d')
    (hi : ∀ row c c', c.SameView c' → (i row c).SameView (i row c')) :
    Respects SqliteSession.SameView (SqliteSession.await f i) (SqliteSession.await f i) := by
  intro s s' h
  obtain ⟨hconn, hscript⟩ := h
  rw [SqliteSession.await, SqliteSession.await, ← hscript]
  cases s.script.head?.join with
  | some fault => exact ⟨rfl, hi fault.row s.conn s'.conn hconn, rfl⟩
  | none =>
    rcases hf s.conn s'.conn hconn with ⟨exc, he, he'⟩ | ⟨d, d', hd, hd', hsame⟩
    · rw [he, he']
      exact ⟨rfl, hconn, rfl⟩
    · rw [hd, hd']
      exact ⟨rfl, hsame, rfl⟩

namespace SQLiteProvider

open SqliteSession (SameView respects_await)

variable (ignores : String → List Row → Row → Bool)

theorem respects_commit : Respects SameView commit commit :=
  respects_await (fun c c' h => Or.inr ⟨c.commit, c'.commit, rfl, rfl, h.commit⟩) (fun _ _ _ h => h)

theorem respects_executemany (q : Insert) :
    Respects SameView (executemany ignores q) (executemany ignores q) := by
  apply respects_await
  · intro c c' h
    rw [← h.tables]
    cases c.tables.get? q.table with
    | none => exact Or.inl ⟨_, rfl, rfl⟩
    | some table => exact Or.inr ⟨_, _, rfl, rfl, h.dml _⟩
  · intro row c c' h
    rw [interrupted, interrupted, ← h.tables]
    cases c.tables.get? q.table with
    | none => exact h
    | some table => exact h.dml _

theorem respects_executeDelete (tableName : String) :
    Respects SameView (executeDelete tableName) (executeDelete tableName) := by
  apply respects_await
  · intro c c' h
    rw [← h.tables]
    cases c.tables.get? tableName with
    | none => exact Or.inl ⟨_, rfl, rfl⟩
    | some table => exact Or.inr ⟨_, _, rfl, rfl, h.dml _⟩
  · exact fun _ _ _ h => h

theorem respects_executeCreate (tableName definition : String) :
    Respects SameView (executeCreate tableName definition) (executeCreate tableName definition) :=
  respects_await (fun _ _ h => Or.inr ⟨_, _, rfl, rfl, h.ddl_create tableName definition⟩)
    (fun _ _ _ h => h)

theorem respects_insertBatch (tableName : String) (rows : List Row)
    (columns : Option (List String)) :
    Respects SameView (insertBatch ignores tableName rows columns)
      (insertBatch ignores tableName rows columns) := by
  cases rows with
  | nil => exact Call.respects_pure 0
  | cons first rest =>
    refine (respects_executemany ignores _).bind fun _ => ?_
    exact respects_commit.bind fun _ => Call.respects_pure _

/-- No operation tells the two sessions apart. -/
theorem respects_operation (op : Operation) :
    Respects SameView (op.call ignores) (op.call ignores) := by
  cases op with
  | insertBatch tableName rows columns =>
    exact (respects_insertBatch ignores tableName rows columns).bind fun _ => Call.respects_pure ()
  | createTable schema =>
    exact (respects_executeCreate schema.name _).bind fun _ => respects_commit
  | truncateTable tableName =>
    exact (respects_executeDelete tableName).bind fun _ => respects_commit

theorem after_sameView (ops : List Operation) {s s' : SqliteSession} (h : s.SameView s') :
    (after ignores ops s).SameView (after ignores ops s') := by
  induction ops generalizing s s' with
  | nil => exact h
  | cons op ops ih => exact ih (respects_operation ignores op s s' h).2

/-- Rows added one by one change nothing just when each is one the table ignores. -/
theorem addRows_eq_self_iff (table : SqliteTable) (rows : List Row) :
    addRows ignores table rows = table ↔
      ∀ row ∈ rows, ignores table.definition table.rows row = true := by
  have hgrow : ∀ (rows start : List Row), start.length ≤
      (rows.foldl (insertOrIgnore ignores table.definition) start).length := by
    intro rows
    induction rows with
    | nil => exact fun start => Nat.le_refl _
    | cons row rows ih =>
      intro start
      have hnext := ih (insertOrIgnore ignores table.definition start row)
      have hone : start.length ≤ (insertOrIgnore ignores table.definition start row).length := by
        rw [insertOrIgnore]
        split <;> simp
      exact Nat.le_trans hone hnext
  have hrows : addRows ignores table rows = table ↔
      rows.foldl (insertOrIgnore ignores table.definition) table.rows = table.rows := by
    obtain ⟨definition, content⟩ := table
    simp [addRows]
  rw [hrows]
  clear hrows
  induction rows with
  | nil => simp
  | cons row rows ih =>
    rw [List.foldl_cons, List.forall_mem_cons]
    by_cases hi : ignores table.definition table.rows row = true
    · have hsame : insertOrIgnore ignores table.definition table.rows row = table.rows := if_pos hi
      rw [hsame]
      exact ⟨fun h => ⟨hi, ih.mp h⟩, fun h => ih.mpr h.2⟩
    · have hadd : insertOrIgnore ignores table.definition table.rows row = table.rows ++ [row] :=
        if_neg hi
      rw [hadd]
      have hlen := hgrow rows (table.rows ++ [row])
      constructor
      · intro h
        rw [h, List.length_append, List.length_singleton] at hlen
        omega
      · exact fun h => absurd h.1 hi

/-- What the failing call leaves: the rows before the failing one, in an open transaction. -/
private theorem insertBatch_raised (conn : SqliteConnection) (tableName : String) {rows : List Row}
    (hrows : rows ≠ []) (columns : Option (List String)) (row : Nat) :
    ∃ left, (∀ exc later, insertBatch ignores tableName rows columns
        ⟨conn, some ⟨row, exc⟩ :: later⟩ = (.raised exc, ⟨left, later⟩)) ∧
      (conn.tables.get? tableName = none → left = conn) ∧
      ∀ table, conn.tables.get? tableName = some table → left = conn.dml (·.set tableName
        (addRows ignores table ((statementRows tableName columns rows).take row))) := by
  cases rows with
  | nil => exact absurd rfl hrows
  | cons first rest =>
    have hraise : ∀ exc later, insertBatch ignores tableName (first :: rest) columns
        ⟨conn, some ⟨row, exc⟩ :: later⟩ = (.raised exc,
          ⟨interrupted ignores (Insert.ofRows tableName columns first (first :: rest)) row conn,
            later⟩) := fun exc later => Call.bind_of_raised rfl
    refine ⟨_, hraise, ?_, ?_⟩
    · intro h
      have htable : conn.tables.get? (Insert.ofRows tableName columns first (first :: rest)).table =
          none := h
      rw [interrupted, htable]
    · intro table h
      have htable : conn.tables.get? (Insert.ofRows tableName columns first (first :: rest)).table =
          some table := h
      rw [interrupted, htable]
      rfl

/-- Without a fault ahead, an operation on a table that is there commits what the connection has. -/
private theorem after_create {conn : SqliteConnection} {schema : TableSchema}
    (h : schema.name ∈ conn.tables.keys) (t : String) :
    (after ignores [.createTable schema] ⟨conn, []⟩).conn.visible t =
      ((conn.tables.get? t).map (·.rows)).getD [] := by
  have hcreate : createTable schema ⟨conn, []⟩ = (.returned (), ⟨(conn.ddl fun tables =>
      if schema.name ∈ tables.keys then tables
      else tables.set schema.name ⟨tableDefinition schema, []⟩).commit, []⟩) := rfl
  change (createTable schema ⟨conn, []⟩).2.conn.visible t = _
  rw [hcreate, SqliteConnection.visible, SqliteConnection.commit]
  simp only [SqliteConnection.tables_ddl, if_pos h]

/-- `insert_batch` that raises at a row, with any table content, any constraints and any batch: it
leaves nothing behind just when every earlier row is one the table ignores. -/
theorem insertBatch_leaves_nothing_iff (conn : SqliteConnection) (tableName : String)
    (rows : List Row) (columns : Option (List String)) (row : Fin rows.length) :
    (∀ exc later, (insertBatch ignores tableName rows columns
      ⟨conn, some ⟨row, exc⟩ :: later⟩).1 = .raised exc) ∧
    (LeavesNothing ignores conn tableName rows columns row ↔
      ∀ table, conn.tables.get? tableName = some table →
        ∀ r ∈ (statementRows tableName columns rows).take row,
          ignores table.definition table.rows r = true) := by
  have hrows : rows ≠ [] := List.ne_nil_of_length_pos (Nat.lt_of_le_of_lt (Nat.zero_le _) row.isLt)
  obtain ⟨left, hraised, habsent, hpresent⟩ :=
    insertBatch_raised ignores conn tableName hrows columns row
  refine ⟨fun exc later => by rw [hraised], ?_⟩
  constructor
  · intro h table htable
    have hleft := hpresent table htable
    have hmem : tableName ∈ conn.tables.keys := Dict.mem_keys_of_get? htable
    -- any operation that commits brings the leftover rows to light
    have hshown := h ⟨.other, ""⟩ [] [.createTable { name := tableName, columns := [] }] tableName
    have hleftMem : tableName ∈ left.tables.keys := by
      rw [hleft]
      exact (Dict.mem_keys_set _ _ _ _).mpr (Or.inl rfl)
    have hrow : left.tables.get? tableName = some (addRows ignores table
        ((statementRows tableName columns rows).take row)) := by
      rw [hleft]
      exact (Dict.get?_set _ _ _ _).trans (if_pos rfl)
    rw [hraised, after_create ignores hleftMem, after_create ignores hmem, hrow, htable] at hshown
    rw [← addRows_eq_self_iff]
    have hsame : (addRows ignores table
        ((statementRows tableName columns rows).take row)).rows = table.rows := hshown
    exact congrArg (SqliteTable.mk table.definition) hsame
  · intro h exc later ops t
    have hsame : left.SameView conn := by
      cases htable : conn.tables.get? tableName with
      | none => exact habsent htable ▸ ⟨rfl, fun _ => rfl⟩
      | some table =>
        have hkept := (addRows_eq_self_iff ignores table _).mpr (h table htable)
        rw [hpresent table htable, hkept]
        exact ⟨Dict.set_self _ htable, fun _ => rfl⟩
    rw [hraised]
    have hsession : (SqliteSession.mk left later).SameView ⟨conn, later⟩ := ⟨hsame, rfl⟩
    exact (after_sameView ignores ops hsession).conn.visible t

/-- One empty table. -/
def events : SqliteConnection where
  committed := Dict.ofList [("events", ⟨"\"n\" INTEGER", []⟩)]

/-- The second row of two cannot be bound. The table that is created next makes the first one
durable, although its batch failed. -/
theorem failed_batch_leaves_row :
    (after (fun _ rows row => row ∈ rows) [.createTable { name := "users", columns := [] }]
      (insertBatch (fun _ rows row => row ∈ rows) "events"
        ([1, 2].map fun i => Dict.ofList [("n", .int i)]) none
        ⟨events, [some ⟨1, ⟨.other, "type 'Decimal' is not supported"⟩⟩]⟩).2).conn.visible "events" =
      [Dict.ofList [("n", .int 1)]] ∧
    ¬ LeavesNothing (fun _ rows row => row ∈ rows) events "events"
        ([1, 2].map fun i => Dict.ofList [("n", .int i)]) none 1 := by
  refine ⟨by decide, ?_⟩
  intro h
  have hshown := h ⟨.other, "type 'Decimal' is not supported"⟩ []
    [.createTable { name := "users", columns := [] }] "events"
  exact absurd hshown (by decide)

end SQLiteProvider

end DataBridge
