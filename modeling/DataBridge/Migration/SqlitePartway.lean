import DataBridge.Framework.Keyed
import DataBridge.Framework.Yields
import DataBridge.Migration.RestartKeyed
import DataBridge.Migration.SqliteRestart
import DataBridge.Migration.SqliteSite

namespace DataBridge

open Call (Keeps Yields Simulates)
open SQLiteProvider (insertOrIgnore addRows tableDefinition)

/-! ## Tables with a part of a copy -/

/-- A new table for `copy` ignores, of the rows of `copy`, just those whose key it has, and no two of
them have the same key. -/
def SqliteTable.KeyedBy (ignores : String → List Row → Row → Bool) (copy : SqliteTable)
    (keyColumns : List String) : Prop :=
  (copy.rows.map (Row.key keyColumns)).Nodup ∧ ∀ rows row, rows ⊆ copy.rows → row ∈ copy.rows →
    ignores copy.definition rows row = Keyed.sameKey (Row.key keyColumns) rows row

/-- The table was created for `copy`, and has some of its rows, each once. -/
structure SqliteTable.PartOf (copy table : SqliteTable) : Prop where
  definition : table.definition = copy.definition
  rows : table.rows.Nodup ∧ table.rows ⊆ copy.rows

namespace SqliteTable

variable {ignores : String → List Row → Row → Bool} {copy table : SqliteTable}
  {keyColumns : List String} {rows : List Row}

theorem partOf_created (definition : String) (rows : List Row) :
    PartOf ⟨definition, rows⟩ ⟨definition, []⟩ := ⟨rfl, List.nodup_nil, by simp⟩

/-- Row by row, the table ignores what has its key already. -/
theorem foldl_keyed (hkeyed : copy.KeyedBy ignores keyColumns) {old : List Row}
    (hold : old ⊆ copy.rows) (hrows : rows ⊆ copy.rows) :
    rows.foldl (insertOrIgnore ignores copy.definition) old =
      Keyed.insertAll (Keyed.sameKey (Row.key keyColumns)) old rows := by
  induction rows generalizing old with
  | nil => rfl
  | cons row rows ih =>
    obtain ⟨hrow, hrest⟩ := List.cons_subset.mp hrows
    have hone : insertOrIgnore ignores copy.definition old row =
        Keyed.insert (Keyed.sameKey (Row.key keyColumns)) old row := by
      rw [insertOrIgnore, Keyed.insert, hkeyed.2 old row hold hrow]
    have hnext := Keyed.insert_subset (Row.key keyColumns) hold hrow
    rw [List.foldl_cons, hone, ih hnext hrest]
    rfl

theorem PartOf.addRows (hkeyed : copy.KeyedBy ignores keyColumns) (h : copy.PartOf table)
    (hrows : rows ⊆ copy.rows) : copy.PartOf (SQLiteProvider.addRows ignores table rows) := by
  refine ⟨h.definition, ?_⟩
  have hadded := foldl_keyed hkeyed h.rows.2 hrows
  rw [SQLiteProvider.addRows, h.definition, hadded]
  exact Keyed.insertAll_part (Row.key keyColumns) h.rows hrows

/-- Offered all rows of the copy, the table has them all, each once. -/
theorem PartOf.addRows_all (hkeyed : copy.KeyedBy ignores keyColumns) (h : copy.PartOf table) :
    (SQLiteProvider.addRows ignores table copy.rows).rows.Perm copy.rows := by
  have hadded := foldl_keyed hkeyed h.rows.2 (List.Subset.refl copy.rows)
  have hsome : table.rows.Subperm copy.rows := h.rows.1.subperm h.rows.2
  rw [SQLiteProvider.addRows, h.definition, hadded]
  exact (Keyed.insertAll_perm_iff (Row.key keyColumns) hkeyed.1 (List.Subset.refl copy.rows)
    (List.Subset.refl copy.rows)).mpr hsome

end SqliteTable

/-- Each table of `ts` is absent or has a part of its copy, and all others are as at the start. -/
structure Partway (copies : String → SqliteTable) (ts : List String) (start d : SqliteTables) :
    Prop where
  tables : ∀ t ∈ ts, ∀ table, d.get? t = some table → (copies t).PartOf table
  others : ∀ t, t ∉ ts → d.get? t = start.get? t

/-- No two of the tables, and none of them and of the tables of the database, have names that differ
in the case of their letters only. -/
structure NamesApart (ts : List String) (start : SqliteTables) : Prop where
  new : ∀ t ∈ ts, SQLiteProvider.NewTo start t
  apart : ∀ t ∈ ts, ∀ u ∈ ts, Sqlite.foldCase t = Sqlite.foldCase u → t = u

section partway

variable {ignores : String → List Row → Row → Bool} {copies : String → SqliteTable}
  {ts : List String} {start d : SqliteTables} {t : String} {keyColumns : List String}

/-- A destination without the tables is where the first attempt starts. -/
theorem partway_start (h : NamesApart ts start) : Partway copies ts start start := by
  refine ⟨?_, fun _ _ => rfl⟩
  intro t ht table htable
  exact absurd (Dict.mem_keys_of_get? htable) (h.new t ht).absent

/-- A statement with the name of one of the tables finds no other table. -/
theorem Partway.nameOf (h : Partway copies ts start d) (hnames : NamesApart ts start) (ht : t ∈ ts) :
    SQLiteProvider.nameOf d t = t := by
  by_cases hmem : t ∈ d.keys
  · exact SQLiteProvider.nameOf_of_mem hmem
  · apply SQLiteProvider.NewTo.nameOf
    intro k hk hsame
    by_cases hkt : k ∈ ts
    · have heq : k = t := hnames.apart k hkt t ht hsame
      exact hmem (heq ▸ hk)
    · obtain ⟨table, htable⟩ := (Dict.mem_keys_iff_exists d k).mp hk
      rw [h.others k hkt] at htable
      exact hnames.new t ht k (Dict.mem_keys_of_get? htable) hsame

theorem Partway.set (h : Partway copies ts start d) (ht : t ∈ ts) {table : SqliteTable}
    (htable : (copies t).PartOf table) : Partway copies ts start (d.set t table) := by
  constructor
  · intro u hu found hfound
    rw [Dict.get?_set] at hfound
    split at hfound
    · rename_i heq
      cases hfound
      exact heq ▸ htable
    · exact h.tables u hu found hfound
  · intro u hu
    have hne : u ≠ t := fun heq => hu (heq ▸ ht)
    rw [Dict.get?_set, if_neg hne]
    exact h.others u hu

end partway

/-! ## Connections -/

/-- What is committed, and what an open transaction has made of it, are in `P`. -/
def SqliteConnection.Always (P : SqliteTables → Prop) (c : SqliteConnection) : Prop :=
  P c.committed ∧ ∀ tables, c.transaction = some tables → P tables

namespace SqliteConnection

variable {P : SqliteTables → Prop} {c : SqliteConnection}

theorem Always.tables (h : c.Always P) : P c.tables := by
  rw [SqliteConnection.tables]
  cases htransaction : c.transaction with
  | none => exact h.1
  | some tables => exact h.2 tables htransaction

theorem always_committed {d : SqliteTables} (h : P d) : Always P { committed := d } := by
  refine ⟨h, ?_⟩
  intro tables heq
  cases heq

theorem Always.reopened (h : c.Always P) : c.reopened.Always P := always_committed h.1

theorem Always.commit (h : c.Always P) : c.commit.Always P := always_committed h.tables

theorem Always.dml (h : c.Always P) {f : SqliteTables → SqliteTables} (hf : P (f c.tables)) :
    (c.dml f).Always P := by
  refine ⟨h.1, ?_⟩
  intro tables heq
  cases heq
  exact hf

theorem Always.ddl (h : c.Always P) {f : SqliteTables → SqliteTables}
    (hf : ∀ tables, P tables → P (f tables)) : (c.ddl f).Always P := by
  obtain ⟨committed, transaction⟩ := c
  cases transaction with
  | none => exact always_committed (hf committed h.1)
  | some tables =>
    refine ⟨h.1, ?_⟩
    intro tables' heq
    cases heq
    exact hf tables (h.2 tables rfl)

end SqliteConnection

namespace SQLiteProvider

open SqliteSession (keeps_await)
open SqliteConnection (Always)

variable {I : SqliteConnection → Prop} {P : SqliteTables → Prop} (engine : SqliteEngine)

/-! ### Calls that read -/

theorem keeps_query (answer : SqliteConnection → Except Exc Unit) :
    Keeps (fun s : SqliteSession => I s.conn) (query answer) := by
  apply keeps_await
  · intro c d hc hd
    cases hanswer : answer c with
    | error exc =>
      rw [hanswer] at hd
      cases hd
    | ok u =>
      rw [hanswer] at hd
      cases hd
      exact hc
  · exact fun _ _ hc => hc

/-- Where the name finds the table that has it, the call is one on this table. -/
theorem yields_onTable {α : Type} {B : α → Prop} {t : String}
    {call : String → Call Exc SqliteSession α} (hname : ∀ c, I c → nameOf c.tables t = t)
    (hcall : Yields (fun s : SqliteSession => I s.conn) B (call t)) :
    Yields (fun s : SqliteSession => I s.conn) B (onTable t call) := by
  have hread : Yields (fun s : SqliteSession => I s.conn) (fun name => name = t)
      (Call.read fun s => nameOf s.conn.tables t : Call Exc SqliteSession String) :=
    Call.yields_read fun s hs => hname s.conn hs
  refine hread.bind ?_
  intro name heq
  rw [heq]
  exact hcall

theorem keeps_onTable {α : Type} {t : String} {call : String → Call Exc SqliteSession α}
    (hname : ∀ c, I c → nameOf c.tables t = t)
    (hcall : Keeps (fun s : SqliteSession => I s.conn) (call t)) :
    Keeps (fun s : SqliteSession => I s.conn) (onTable t call) :=
  (yields_onTable hname hcall.yields).keeps

theorem keeps_getTableSchema (tableInfo : String → TableInfo) (t : String) :
    Keeps (fun s : SqliteSession => I s.conn) (getTableSchema tableInfo t) := by
  have hinfo : Keeps (fun s : SqliteSession => I s.conn) (executeTableInfo tableInfo t) :=
    (keeps_query _).bind fun _ => Call.keeps_read _
  have hcount : Keeps (fun s : SqliteSession => I s.conn) (getRowCount t) :=
    (keeps_query _).bind fun _ => Call.keeps_read _
  exact hinfo.bind fun _ => hcount.bind fun _ => Call.keeps_pure _

theorem keeps_tableExists (t : String) :
    Keeps (fun s : SqliteSession => I s.conn) ((provider engine).tableExists t) :=
  (keeps_query _).bind fun _ => Call.keeps_read _

/-- A schema that is read is the one of a table of the connection. -/
theorem yields_getTableSchema {t : String} (hname : ∀ c, I c → nameOf c.tables t = t)
    {S : TableSchema → Prop} (h : ∀ c table, I c → c.tables.get? t = some table →
      S (tableSchema t (engine.tableInfo table.definition).rows table.rows.length)) :
    Yields (fun s : SqliteSession => I s.conn) S ((provider engine).getTableSchema t) := by
  refine yields_onTable hname ?_
  refine ((keeps_getTableSchema engine.tableInfo t).bind fun _ => Call.keeps_pure _).yields_of ?_
  intro s hs
  apply Call.wp_seq (wp_getTableSchema engine.tableInfo t s)
  intro schema _ hread
  obtain ⟨table, htable, heq⟩ := hread
  rw [heq]
  exact h s.conn table hs htable

/-- A batch that is read is a page of a table of the connection. -/
theorem yields_fetchBatch {t : String} (hname : ∀ c, I c → nameOf c.tables t = t)
    (offset limit : Nat) (cols : Option (List String)) {B : List Row → Prop}
    (h : ∀ c, I c →
      B (selectRows (((c.tables.get? t).map (·.rows)).getD []) ⟨cols, t, limit, offset⟩)) :
    Yields (fun s : SqliteSession => I s.conn) B ((provider engine).fetchBatch t offset limit cols) := by
  apply yields_onTable hname
  exact (keeps_query _).yields.bind fun _ _ => Call.yields_read fun s hs => h s.conn hs

/-! ### Calls that write -/

theorem keeps_reopen (hI : ∀ c, I c → I c.reopened) :
    Keeps (fun s : SqliteSession => I s.conn) connect ∧
      Keeps (fun s : SqliteSession => I s.conn) disconnect := by
  have hreopen : Keeps (fun s : SqliteSession => I s.conn)
      (SqliteSession.await (fun conn => .ok conn.reopened) (fun _ conn => conn)) := by
    apply keeps_await
    · intro c d hc hd
      cases hd
      exact hI c hc
    · exact fun _ _ hc => hc
  exact ⟨hreopen.bind fun _ => (keeps_query _).bind fun _ => keeps_query _, hreopen⟩

theorem keeps_commit_always : Keeps (fun s : SqliteSession => s.conn.Always P) commit := by
  apply keeps_await
  · intro c d hc hd
    cases hd
    exact hc.commit
  · exact fun _ _ hc => hc

theorem keeps_createTable (schema : TableSchema)
    (hname : ∀ tables, P tables → nameOf tables schema.name = schema.name)
    (h : ∀ tables, P tables → schema.name ∉ tables.keys →
      P (tables.set schema.name ⟨tableDefinition schema, []⟩)) :
    Keeps (fun s : SqliteSession => s.conn.Always P) ((provider engine).createTable schema) := by
  have hcreate : Keeps (fun s : SqliteSession => s.conn.Always P)
      (executeCreate schema.name (tableDefinition schema)) := by
    apply keeps_await
    · intro c d hc hd
      cases hd
      apply hc.ddl
      intro tables htables
      split
      · exact htables
      · exact h tables htables ‹_›
    · exact fun _ _ hc => hc
  apply keeps_onTable fun c hc => hname c.tables hc.tables
  exact hcreate.bind fun _ => keeps_commit_always

theorem keeps_truncateTable {t : String} (hname : ∀ tables, P tables → nameOf tables t = t)
    (h : ∀ tables table, P tables → tables.get? t = some table →
      P (tables.set t { table with rows := [] })) :
    Keeps (fun s : SqliteSession => s.conn.Always P) ((provider engine).truncateTable t) := by
  have hdelete : Keeps (fun s : SqliteSession => s.conn.Always P) (executeDelete t) := by
    apply keeps_await
    · intro c d hc hd
      cases htable : c.tables.get? t with
      | none =>
        rw [htable] at hd
        cases hd
      | some table =>
        rw [htable] at hd
        cases hd
        exact hc.dml (h c.tables table hc.tables htable)
    · exact fun _ _ hc => hc
  apply keeps_onTable fun c hc => hname c.tables hc.tables
  exact hdelete.bind fun _ => keeps_commit_always

/-- Rows with the same columns, also where the statement stops at one of them. -/
theorem keeps_insertOf {ignores : String → List Row → Row → Bool} {t : String}
    {news : List Row} {cols : List String} (hcols : ∀ new ∈ news, new.keys = cols)
    (h : ∀ tables table n, P tables → tables.get? t = some table →
      P (tables.set t (addRows ignores table (news.take n)))) :
    Keeps (fun s : SqliteSession => s.conn.Always P) (executemany ignores (insertOf t news)) := by
  apply keeps_await
  · intro c d hc hd
    rw [insertOf_table, insertOf_rows hcols] at hd
    cases htable : c.tables.get? t with
    | none =>
      rw [htable] at hd
      cases hd
    | some table =>
      rw [htable] at hd
      cases hd
      have hall := h c.tables table news.length hc.tables htable
      rw [List.take_length] at hall
      exact hc.dml hall
  · intro row c hc
    rw [interrupted, insertOf_table, insertOf_rows hcols]
    cases htable : c.tables.get? t with
    | none => exact hc
    | some table => exact hc.dml (h c.tables table row hc.tables htable)

/-- A batch that is stored as `news` in every table that the connection may have. -/
theorem keeps_insertBatch {t : String} (hname : ∀ tables, P tables → nameOf tables t = t)
    {rows news : List Row} {cols : List String} (hcols : ∀ row ∈ rows, row.keys = cols)
    (hstores : ∀ tables table, P tables → tables.get? t = some table →
      List.Forall₂ (Stores engine t table.definition) rows news)
    (h : ∀ tables table n, P tables → tables.get? t = some table →
      P (tables.set t (addRows engine.ignores table (news.take n)))) :
    Keeps (fun s : SqliteSession => s.conn.Always P)
      ((provider engine).insertBatch t rows none) := by
  apply keeps_onTable fun c hc => hname c.tables hc.tables
  cases rows with
  | nil => exact Call.keeps_pure 0
  | cons first rest =>
    have hrows : (Insert.ofRows t none first (first :: rest)).rows = first :: rest := by
      apply Insert.rows_ofRows
      intro r hr
      rw [hcols r hr, hcols first List.mem_cons_self]
    have hread : Yields (fun s : SqliteSession => s.conn.Always P)
        (fun written => ∃ part, written = (part, none) ∧ (part = news ∨ part = []) ∧
          ∃ cols', ∀ new ∈ part, new.keys = cols')
        (Call.read fun s => writtenRows engine (Insert.ofRows t none first (first :: rest)) s.conn :
          Call Exc SqliteSession (List Row × Option Exc)) := by
      refine Call.yields_read fun s hs => ?_
      have hname : (Insert.ofRows t none first (first :: rest)).table = t := rfl
      rw [writtenRows, hname, hrows]
      cases htable : s.conn.tables.get? t with
      | none => exact ⟨[], rfl, Or.inr rfl, [], by simp⟩
      | some table =>
        have hnews := hstores s.conn.tables table hs.tables htable
        exact ⟨news, storedRows_of_stores hnews table.rows, Or.inl rfl, keys_of_stores hnews hcols⟩
    refine Keeps.bind_of hread fun written hwritten => ?_
    obtain ⟨part, heq, hpart, cols', hcols'⟩ := hwritten
    rw [heq]
    have hwrite : Keeps (fun s : SqliteSession => s.conn.Always P)
        (executemany engine.ignores (insertOf t part)) := by
      refine keeps_insertOf hcols' ?_
      intro tables table n htables htable
      rcases hpart with hall | hnone
      · rw [hall]
        exact h tables table n htables htable
      · have hzero := h tables table 0 htables htable
        rw [hnone, List.take_nil]
        rwa [List.take_zero] at hzero
    exact hwrite.bind fun _ => keeps_commit_always.bind fun _ => Call.keeps_pure _

end SQLiteProvider

end DataBridge
