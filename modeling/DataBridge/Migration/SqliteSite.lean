import DataBridge.Migration.CarriedOut
import DataBridge.Providers.SqliteInsert

namespace DataBridge

namespace Dict

variable {κ ν : Type} [DecidableEq κ]

theorem entries_set_of_mem (d : Dict κ ν) {k : κ} (h : k ∈ d.keys) (v : ν) :
    (d.set k v).entries = d.entries.map fun e => if e.1 = k then (k, v) else e := by
  have hk : k ∈ d.entries.map Prod.fst := h
  rw [set, dif_pos hk]

/-- Of two values for one key the second stays. -/
theorem set_set (d : Dict κ ν) (k : κ) (v w : ν) : (d.set k v).set k w = d.set k w := by
  have hk' : k ∈ (d.set k v).keys := (d.mem_keys_set k k v).mpr (Or.inl rfl)
  apply Dict.ext
  rw [entries_set_of_mem _ hk']
  by_cases hk : k ∈ d.keys
  · rw [entries_set_of_mem d hk, entries_set_of_mem d hk, List.map_map]
    apply List.map_congr_left
    intro e _
    by_cases he : e.1 = k <;> simp [he]
  · rw [entries_set_of_notMem d k v hk, entries_set_of_notMem d k w hk, List.map_append]
    congr 1
    · conv_rhs => rw [← List.map_id d.entries]
      apply List.map_congr_left
      intro e he
      have hne : e.1 ≠ k := fun h => hk (h ▸ List.mem_map_of_mem he)
      simp [hne]
    · simp

end Dict

namespace SQLiteProvider

open Call (Simulates Silent Answers)
open Sqlite (foldCase)

/-- The name of the table that a statement with this name finds: SQLite does not tell names apart
by the case of their letters. -/
def nameOf (d : SqliteTables) (t : String) : String :=
  if t ∈ d.keys then t else (d.keys.find? fun k => foldCase k = foldCase t).getD t

theorem nameOf_of_mem {d : SqliteTables} {t : String} (h : t ∈ d.keys) : nameOf d t = t := if_pos h

/-- No table of the database has the name, in any case of its letters. -/
def NewTo (d : SqliteTables) (t : String) : Prop := ∀ k ∈ d.keys, foldCase k ≠ foldCase t

instance (d : SqliteTables) (t : String) : Decidable (NewTo d t) :=
  inferInstanceAs (Decidable (∀ k ∈ d.keys, foldCase k ≠ foldCase t))

theorem NewTo.absent {d : SqliteTables} {t : String} (h : NewTo d t) : t ∉ d.keys :=
  fun hmem => h t hmem rfl

theorem NewTo.nameOf {d : SqliteTables} {t : String} (h : NewTo d t) : nameOf d t = t := by
  have hnone : (d.keys.find? fun k => foldCase k = foldCase t) = none := by
    rw [List.find?_eq_none]
    exact fun k hk => by simpa using h k hk
  rw [SQLiteProvider.nameOf, if_neg h.absent, hnone, Option.getD_none]

variable (engine : SqliteEngine)

/-! ## The provider as a whole -/

/-- A call whose statement names a table. -/
def onTable {α : Type} (tableName : String) (call : String → Call Exc SqliteSession α) :
    Call Exc SqliteSession α := do
  let name ← Call.read fun s => nameOf s.conn.tables tableName
  call name

/-- `SELECT ... LIMIT ? OFFSET ?`; the rows come in the order of their ids. -/
def fetchBatch (tableName : String) (offset limit : Nat) (columns : Option (List String)) :
    Call Exc SqliteSession (List Row) := do
  query fun conn => if tableName ∈ conn.tables.keys then .ok () else .error (noSuchTable tableName)
  Call.read fun s => selectRows (((s.conn.tables.get? tableName).map (·.rows)).getD [])
    ⟨columns, tableName, limit, offset⟩

/-- `SELECT COUNT(*) FROM sqlite_master ... name=?`, which compares the name as it stands. -/
def tableExists (tableName : String) : Call Exc SqliteSession Bool := do
  query fun _ => .ok ()
  Call.read fun s => tableName ∈ s.conn.tables.keys

/-- A new connection, and its two PRAGMA statements. -/
def connect : Call Exc SqliteSession Unit := do
  SqliteSession.await (fun conn => .ok conn.reopened) (fun _ conn => conn)
  query fun _ => .ok ()
  query fun _ => .ok ()

/-- `close` takes back what was not committed. -/
def disconnect : Call Exc SqliteSession Unit :=
  SqliteSession.await (fun conn => .ok conn.reopened) (fun _ conn => conn)

def provider : ManagedProvider SqliteSession where
  getTableSchema tableName := onTable tableName fun name => do
    let schema ← getTableSchema engine.tableInfo name
    pure { schema with name := tableName }
  tableExists := tableExists
  fetchBatch tableName offset limit columns :=
    onTable tableName fun name => fetchBatch name offset limit columns
  createTable schema := onTable schema.name fun name => createTable { schema with name := name }
  insertBatch tableName rows columns :=
    onTable tableName fun name => insertStored engine name rows columns
  truncateTable tableName := onTable tableName truncateTable
  connect := connect
  disconnect := disconnect

/-! ## The destination -/

/-- No row is ignored when its turn comes. -/
def Taken (ignores : String → List Row → Row → Bool) (definition : String) :
    List Row → List Row → Prop
  | _, [] => True
  | old, row :: rows => ignores definition old row = false ∧ Taken ignores definition (old ++ [row]) rows

theorem foldl_taken {ignores : String → List Row → Row → Bool} {definition : String}
    {old rows : List Row} (h : Taken ignores definition old rows) :
    rows.foldl (insertOrIgnore ignores definition) old = old ++ rows := by
  induction rows generalizing old with
  | nil => simp
  | cons row rows ih =>
    obtain ⟨hrow, hrest⟩ := h
    have hadd : insertOrIgnore ignores definition old row = old ++ [row] := by
      simp [insertOrIgnore, hrow]
    rw [List.foldl_cons, hadd, ih hrest, List.append_assoc, List.singleton_append]

/-- The rows of a table after one more is written. -/
def writeRow (tableName definition : String) (old : List Row) (row : Row) : List Row :=
  match storedRow engine tableName definition old row with
  | .ok new => insertOrIgnore engine.ignores definition old new
  | .error _ => old

theorem foldl_writeRow {tableName definition : String} {rows news : List Row}
    (h : List.Forall₂ (Stores engine tableName definition) rows news) (old : List Row) :
    rows.foldl (writeRow engine tableName definition) old =
      news.foldl (insertOrIgnore engine.ignores definition) old := by
  induction h generalizing old with
  | nil => rfl
  | cons hrow _ ih => rw [List.foldl_cons, List.foldl_cons, writeRow, hrow old, ih]

def insertRows (d : SqliteTables) (t : String) (rows : List Row) : SqliteTables :=
  match d.get? t with
  | some table => d.set t { table with rows := rows.foldl (writeRow engine t table.definition) table.rows }
  | none => d

theorem insertRows_append (d : SqliteTables) (t : String) (xs ys : List Row) :
    insertRows engine (insertRows engine d t xs) t ys = insertRows engine d t (xs ++ ys) := by
  cases htable : d.get? t with
  | none => simp [insertRows, htable]
  | some table => simp [insertRows, htable, Dict.set_set]

/-- The table is there, the rows have the same columns, and none of them is refused. -/
def TakesRows (d : SqliteTables) (t : String) (rows : List Row) : Prop :=
  ∃ table, d.get? t = some table ∧ (∃ cols, ∀ row ∈ rows, row.keys = cols) ∧
    ∃ news, List.Forall₂ (Stores engine t table.definition) rows news

theorem insertRows_of_stores {d : SqliteTables} {t : String} {table : SqliteTable}
    (htable : d.get? t = some table) {rows news : List Row}
    (h : List.Forall₂ (Stores engine t table.definition) rows news) :
    insertRows engine d t rows = d.set t (addRows engine.ignores table news) := by
  rw [insertRows, htable]
  dsimp only
  rw [foldl_writeRow engine h, addRows]

theorem takesRows_append {d : SqliteTables} {t : String} {xs ys : List Row}
    (h : TakesRows engine d t (xs ++ ys)) :
    TakesRows engine d t xs ∧ TakesRows engine (insertRows engine d t xs) t ys := by
  obtain ⟨table, htable, ⟨cols, hcols⟩, news, hnews⟩ := h
  obtain ⟨newXs, hxs, -⟩ := stores_subset hnews (List.subset_append_left xs ys)
  obtain ⟨newYs, hys, -⟩ := stores_subset hnews (List.subset_append_right xs ys)
  refine ⟨⟨table, htable, ⟨cols, fun r hr => hcols r (List.mem_append_left _ hr)⟩, newXs, hxs⟩, ?_⟩
  refine ⟨addRows engine.ignores table newXs, ?_,
    ⟨cols, fun r hr => hcols r (List.mem_append_right _ hr)⟩, newYs, hys⟩
  rw [insertRows_of_stores engine htable hxs, Dict.get?_set, if_pos rfl]

/-- The tables of a SQLite database, as a destination. -/
def store : DestinationStore SqliteTables where
  present d t := t ∈ d.keys
  create d schema :=
    if nameOf d schema.name ∈ d.keys then d
    else d.set (nameOf d schema.name) ⟨tableDefinition schema, []⟩
  clear d t := match d.get? t with
    | some table => d.set t { table with rows := [] }
    | none => d
  append := insertRows engine
  Accepts := TakesRows engine
  append_nil d t := by
    cases htable : d.get? t with
    | none => simp [insertRows, htable]
    | some table => simp [insertRows, htable, Dict.set_self]
  append_append := insertRows_append engine
  accepts_append _ _ _ _ := takesRows_append engine

theorem store_clear {d : SqliteTables} {t : String} {table : SqliteTable}
    (h : d.get? t = some table) :
    (store engine).clear d t = d.set t { table with rows := [] } := by
  simp [store, h]

/-- An open connection that nothing goes wrong on, with everything committed. -/
def Idle (d : SqliteTables) (s : SqliteSession) : Prop := s = ⟨{ committed := d }, []⟩

theorem simulates_of_idle {α : Type} {d e : SqliteTables} {a : α} {R : α → SqliteTables → Prop}
    {c : Call Exc SqliteSession α}
    (h : c ⟨{ committed := d }, []⟩ = (.returned a, ⟨{ committed := e }, []⟩)) (hr : R a e) :
    Simulates Idle d R c := by
  intro s hs
  rw [hs, Call.wp, h]
  exact ⟨e, hr, rfl⟩

theorem query_idle {answer : SqliteConnection → Except Exc Unit} {d : SqliteTables}
    (h : answer { committed := d } = .ok ()) :
    query answer ⟨{ committed := d }, []⟩ = (.returned (), ⟨{ committed := d }, []⟩) := by
  simp [query, SqliteSession.await, h, Except.map]

variable {engine} {d : SqliteTables}

theorem simulates_onTable {α : Type} {t : String} {R : α → SqliteTables → Prop}
    {call : String → Call Exc SqliteSession α} (h : Simulates Idle d R (call (nameOf d t))) :
    Simulates Idle d R (onTable t call) := by
  intro s hs
  have hname : nameOf s.conn.tables t = nameOf d t := by rw [hs]; rfl
  change Call.wp (call (nameOf s.conn.tables t)) _ s
  rw [hname]
  exact h s hs

theorem simulates_createTable (schema : TableSchema) : Simulates Idle d
    (fun _ d' => d' = (store engine).create d schema) ((provider engine).createTable schema) :=
  simulates_onTable (simulates_of_idle rfl rfl)

theorem simulates_truncateTable {t : String} (h : (store engine).present d t = true) :
    Simulates Idle d (fun _ d' => d' = (store engine).clear d t)
      ((provider engine).truncateTable t) := by
  have hmem : t ∈ d.keys := by simpa [store] using h
  obtain ⟨table, htable⟩ := (Dict.mem_keys_iff_exists d t).mp hmem
  have hdelete : executeDelete t ⟨{ committed := d }, []⟩ = (.returned (),
      ⟨{ committed := d, transaction := some (d.set t { table with rows := [] }) }, []⟩) := by
    simp [executeDelete, SqliteSession.await, SqliteConnection.tables, htable,
      SqliteConnection.dml]
  apply simulates_onTable
  rw [nameOf_of_mem hmem]
  refine simulates_of_idle (a := ()) (e := d.set t { table with rows := [] }) ?_ ?_
  · rw [truncateTable, Call.bind_of_returned hdelete]
    rfl
  · exact (store_clear engine htable).symm

theorem simulates_insertBatch {t : String} {batch : List Row} (hne : batch ≠ [])
    (h : TakesRows engine d t batch) : Simulates Idle d
      (fun _ d' => d' = insertRows engine d t batch) ((provider engine).insertBatch t batch none) := by
  obtain ⟨table, htable, ⟨cols, hcols⟩, news, hnews⟩ := h
  have hmem : t ∈ d.keys := Dict.mem_keys_of_get? htable
  apply simulates_onTable
  rw [nameOf_of_mem hmem]
  cases batch with
  | nil => exact absurd rfl hne
  | cons first rest =>
    have hrows : (Insert.ofRows t none first (first :: rest)).rows = first :: rest := by
      apply Insert.rows_ofRows
      intro r hr
      rw [hcols r hr, hcols first List.mem_cons_self]
    have hwritten : writtenRows engine (Insert.ofRows t none first (first :: rest))
        { committed := d } = (news, none) := by
      have hname : (Insert.ofRows t none first (first :: rest)).table = t := rfl
      rw [writtenRows, hname, hrows]
      simp [SqliteConnection.tables, htable, storedRows_of_stores hnews]
    have hwrite : executemany engine.ignores (insertOf t news) ⟨{ committed := d }, []⟩ =
        (.returned (), ⟨⟨d, some (d.set t (addRows engine.ignores table news))⟩, []⟩) := by
      obtain ⟨cols', hcols'⟩ := keys_of_stores hnews hcols
      simp [executemany, SqliteSession.await, SqliteConnection.tables, htable,
        insertOf_rows hcols', SqliteConnection.dml]
    have hread : (Call.read fun s : SqliteSession =>
        writtenRows engine (Insert.ofRows t none first (first :: rest)) s.conn)
          ⟨{ committed := d }, []⟩ =
        ((.returned (news, none), ⟨{ committed := d }, []⟩) : Outcome Exc _ × _) := by
      rw [Call.read, hwritten]
    refine simulates_of_idle (a := (first :: rest).length)
      (e := d.set t (addRows engine.ignores table news)) ?_ ?_
    · rw [insertStored, Call.bind_of_returned hread]
      dsimp only
      rw [Call.bind_of_returned hwrite]
      rfl
    · exact (insertRows_of_stores engine htable hnews).symm

/-! ## The source -/

theorem simulates_fetchBatch {t : String} {table : SqliteTable} (h : d.get? t = some table)
    (offset limit : Nat) (cols : Option (List String)) : Simulates Idle d
      (fun batch d' => batch = selectRows table.rows ⟨cols, t, limit, offset⟩ ∧ d' = d)
      ((provider engine).fetchBatch t offset limit cols) := by
  have hmem : t ∈ d.keys := Dict.mem_keys_of_get? h
  apply simulates_onTable
  rw [nameOf_of_mem hmem]
  refine simulates_of_idle (a := selectRows table.rows ⟨cols, t, limit, offset⟩) (e := d) ?_
    ⟨rfl, rfl⟩
  rw [fetchBatch, Call.bind_of_returned (query_idle (if_pos hmem))]
  simp [Call.read, SqliteConnection.tables, h]

theorem answers_getTableSchema {t : String} {table : SqliteTable} (h : d.get? t = some table) :
    Answers Idle d (.ok (tableSchema t (engine.tableInfo table.definition).rows table.rows.length))
      ((provider engine).getTableSchema t) := by
  intro s hs
  have hread : getTableSchema engine.tableInfo t ⟨{ committed := d }, []⟩ = _ :=
    getTableSchema_of_present engine.tableInfo h
  have hname : nameOf s.conn.tables t = t := by
    rw [hs]
    exact nameOf_of_mem (Dict.mem_keys_of_get? h)
  change Call.wp (getTableSchema engine.tableInfo (nameOf s.conn.tables t) >>= _) _ s
  rw [hname, hs, Call.wp_bind, Call.wp, hread]
  exact ⟨rfl, rfl⟩

theorem answers_tableExists (t : String) :
    Answers Idle d (.ok (decide (t ∈ d.keys))) (tableExists t) := by
  intro s hs
  rw [hs, tableExists, Call.wp_bind]
  exact ⟨rfl, rfl⟩

theorem silent_connect : Silent Idle d connect := simulates_of_idle rfl rfl

theorem silent_disconnect : Silent Idle d disconnect := simulates_of_idle rfl rfl

end SQLiteProvider

end DataBridge
