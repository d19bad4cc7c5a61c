import DataBridge.Framework.ExceptList
import DataBridge.Framework.SqliteTypes
import DataBridge.Providers.SqliteSchema

namespace DataBridge

namespace Dict

variable {κ ν : Type} [DecidableEq κ]

/-- The keys of a dict that is built from a list are settled by the keys of the list. -/
theorem keys_ofList_congr {es es' : List (κ × ν)} (h : es.map Prod.fst = es'.map Prod.fst) :
    (ofList es).keys = (ofList es').keys := by
  have hfold : ∀ (es es' : List (κ × ν)) (d d' : Dict κ ν), d.keys = d'.keys →
      es.map Prod.fst = es'.map Prod.fst →
      (es.foldl (fun d e => d.set e.1 e.2) d).keys =
        (es'.foldl (fun d e => d.set e.1 e.2) d').keys := by
    intro es
    induction es with
    | nil =>
      intro es' d d' hd hes
      have hnil : es' = [] := List.map_eq_nil_iff.mp hes.symm
      rw [hnil]
      exact hd
    | cons e es ih =>
      intro es' d d' hd hes
      cases es' with
      | nil => cases hes
      | cons e' es' =>
        obtain ⟨hkey, hrest⟩ := List.cons.inj hes
        apply ih es' _ _ _ hrest
        rw [keys_set, keys_set, hd, hkey]
  exact hfold es es' empty empty rfl h

end Dict

/-- The value that a query gives for a stored one. -/
def Sqlite.Value.read : Sqlite.Value → DataBridge.Value
  | null => .none
  | integer i _ => .int i
  | real (.finite q) => .float (.finite q)
  | real (.infinite negative) => .float (.inf negative)
  | text s => .str s
  | blob b => .bytes b

/-- The value that the driver binds; an integer beyond 64 bits and any other object it refuses. -/
def Value.bound : Value → Except Exc Sqlite.Value
  | .none => .ok .null
  | .bool b => .ok (if b then .integer 1 (by decide) else .integer 0 (by decide))
  | .int i => if range : -2 ^ 63 ≤ i ∧ i < 2 ^ 63 then .ok (.integer i range)
    else .error ⟨.overflowError, "Python int too large to convert to SQLite INTEGER"⟩
  | .float (.finite q) => .ok (.real (.finite q))
  | .float (.inf negative) => .ok (.real (.infinite negative))
  | .float .nan => .ok .null
  | .str s => .ok (.text s)
  | .bytes b => .ok (.blob b)
  | .container _ | .other _ => .error ⟨.other, "type is not supported"⟩

/-- What is read and bound again is what was stored. -/
theorem bound_read (x : Sqlite.Value) : x.read.bound = .ok x := by
  cases x with
  | integer i range => exact dif_pos range
  | real r => cases r <;> rfl
  | _ => rfl

/-- Two stored values are never read alike. -/
theorem read_injective : Function.Injective Sqlite.Value.read := by
  intro x y hread
  have hbound := congrArg Value.bound hread
  rw [bound_read, bound_read] at hbound
  exact Except.ok.inj hbound

/-- What the providers leave to SQLite: what `PRAGMA table_info` answers for a definition, the rows
that a table with a definition and these rows skips under `OR IGNORE`, the numbers, and the rowid
that a new row gets beside these. -/
structure SqliteEngine where
  tableInfo : String → TableInfo
  ignores : String → List Row → Row → Bool
  reals : Sqlite.Reals
  newRowid : List Row → Int

namespace SQLiteProvider

open Sqlite (foldCase)

/-- The column as `CREATE TABLE` made it. -/
def columnOf (rows : List TableInfoRow) (row : TableInfoRow) : Sqlite.Column where
  type := row.type
  soleKey := row.pk ≠ 0 && (pks rows).length = 1

def datatypeMismatch : Exc := ⟨.other, "datatype mismatch"⟩

def noSuchColumn (tableName column : String) : Exc :=
  ⟨.other, s!"table {tableName} has no column named {column}"⟩

variable (engine : SqliteEngine)

/-- The value as it stands in a new row of a table that has the rows `old`. -/
def storedValue (old : List Row) (c : Sqlite.Column) (v : Value) : Except Exc Value := do
  let x ← v.bound
  match c.write engine.reals x with
  | .value stored => .ok stored.read
  | .newRowid => .ok (.int (engine.newRowid old))
  | .refused => .error datatypeMismatch

def storedEntry (tableName : String) (columns : List TableInfoRow) (old : List Row)
    (entry : String × Value) : Except Exc (String × Value) :=
  match columns.find? fun c => foldCase c.name = foldCase entry.1 with
  | some c => (storedValue engine old (columnOf columns c) entry.2).map fun v => (c.name, v)
  | none => .error (noSuchColumn tableName entry.1)

/-- The new row of a table with this definition and the rows `old`. -/
def storedRow (tableName definition : String) (old : List Row) (row : Row) : Except Exc Row :=
  (row.entries.mapM (storedEntry engine tableName (engine.tableInfo definition).rows old)).map
    Dict.ofList

/-- The new rows one after the other, up to one that is refused. -/
def storedRows (tableName definition : String) : (old rows : List Row) → List Row × Option Exc
  | _, [] => ([], none)
  | old, row :: rows =>
    match storedRow engine tableName definition old row with
    | .error exc => ([], some exc)
    | .ok new =>
      let (news, refused) := storedRows tableName definition
        (insertOrIgnore engine.ignores definition old new) rows
      (new :: news, refused)

/-- The rows that `executemany` writes, up to a record that is refused, and what it raises for it. -/
def writtenRows (q : Insert) (conn : SqliteConnection) : List Row × Option Exc :=
  match conn.tables.get? q.table with
  | some table => storedRows engine q.table table.definition table.rows q.rows
  | none => ([], none)

/-- The statement whose records are these rows. -/
def insertOf (tableName : String) (news : List Row) : Insert :=
  Insert.ofRows tableName none (news.headD Dict.empty) news

@[simp] theorem insertOf_table (tableName : String) (news : List Row) :
    (insertOf tableName news).table = tableName := rfl

theorem insertOf_rows {tableName : String} {news : List Row} {cols : List String}
    (hcols : ∀ new ∈ news, new.keys = cols) : (insertOf tableName news).rows = news := by
  apply Insert.rows_ofRows
  intro new hnew
  cases news with
  | nil => cases hnew
  | cons first rest => rw [hcols new hnew, List.headD_cons, hcols first List.mem_cons_self]

/-- `insert_batch` with the values as the table stores them. -/
def insertStored (tableName : String) (rows : List Row) (columns : Option (List String)) :
    Call Exc SqliteSession Nat :=
  match rows with
  | [] => pure 0
  | first :: _ => do
    let (news, refused) ← Call.read fun s =>
      writtenRows engine (Insert.ofRows tableName columns first rows) s.conn
    executemany engine.ignores (insertOf tableName news)
    match refused with
    | some exc => Call.raise exc
    | none => do
      commit
      pure rows.length

/-- Whatever rows the table has, the row is stored so. -/
def Stores (tableName definition : String) (row new : Row) : Prop :=
  ∀ old, storedRow engine tableName definition old row = .ok new

variable {engine} {tableName definition : String}

theorem storedEntry_key {columns : List TableInfoRow} {old old' : List Row}
    {entry entry' new new' : String × Value} (hkey : entry.1 = entry'.1)
    (h : storedEntry engine tableName columns old entry = .ok new)
    (h' : storedEntry engine tableName columns old' entry' = .ok new') : new.1 = new'.1 := by
  rw [storedEntry] at h h'
  rw [← hkey] at h'
  cases hfind : columns.find? fun c => foldCase c.name = foldCase entry.1 with
  | none =>
    rw [hfind] at h
    cases h
  | some c =>
    rw [hfind] at h h'
    dsimp only at h h'
    obtain ⟨v, -, hv⟩ := ExceptList.map_ok_iff.mp h
    obtain ⟨v', -, hv'⟩ := ExceptList.map_ok_iff.mp h'
    rw [← hv, ← hv']

/-- Rows with the same columns are stored with the same columns. -/
theorem storedRow_keys {old old' : List Row} {row row' new new' : Row} (hkeys : row.keys = row'.keys)
    (h : storedRow engine tableName definition old row = .ok new)
    (h' : storedRow engine tableName definition old' row' = .ok new') : new.keys = new'.keys := by
  rw [storedRow] at h h'
  obtain ⟨es, hes, rfl⟩ := ExceptList.map_ok_iff.mp h
  obtain ⟨es', hes', rfl⟩ := ExceptList.map_ok_iff.mp h'
  rw [ExceptList.mapM_ok_iff] at hes hes'
  apply Dict.keys_ofList_congr
  have hlen : row.entries.length = row'.entries.length := by
    simpa [Dict.keys] using congrArg List.length hkeys
  apply List.ext_getElem
  · simp [← hes.length_eq, ← hes'.length_eq, hlen]
  · intro i hi hi'
    simp only [List.length_map] at hi hi'
    have hrow : i < row.entries.length := hes.length_eq ▸ hi
    have hrow' : i < row'.entries.length := hes'.length_eq ▸ hi'
    have hkey : (row.entries[i]).1 = (row'.entries[i]).1 := by
      have hget := congrArg (fun keys : List String => keys[i]?) hkeys
      simpa [Dict.keys, hrow, hrow'] using hget
    rw [List.getElem_map, List.getElem_map]
    exact storedEntry_key hkey (hes.get hrow hi) (hes'.get hrow' hi')

section stores

variable {rows news : List Row}

/-- Rows that are stored whatever the table has are not refused. -/
theorem storedRows_of_stores (h : List.Forall₂ (Stores engine tableName definition) rows news)
    (old : List Row) : storedRows engine tableName definition old rows = (news, none) := by
  induction h generalizing old with
  | nil => rfl
  | cons hrow _ ih =>
    rw [storedRows, hrow old]
    dsimp only
    rw [ih]

theorem keys_of_stores (h : List.Forall₂ (Stores engine tableName definition) rows news)
    {cols : List String} (hcols : ∀ row ∈ rows, row.keys = cols) :
    ∃ cols', ∀ new ∈ news, new.keys = cols' := by
  induction h with
  | nil => exact ⟨[], by simp⟩
  | @cons row new rows news hrow hrest ih =>
    refine ⟨new.keys, ?_⟩
    intro other hother
    rcases List.mem_cons.mp hother with heq | hmem
    · rw [heq]
    · obtain ⟨row', hrow', hstored⟩ := ExceptList.exists_left_of_forall₂ hrest hmem
      have hkeys : row'.keys = row.keys := by
        rw [hcols row' (List.mem_cons_of_mem _ hrow'), hcols row List.mem_cons_self]
      exact storedRow_keys hkeys (hstored []) (hrow [])

/-- Some of the rows, in any order, are stored as some of the new ones. -/
theorem stores_subset (h : List.Forall₂ (Stores engine tableName definition) rows news)
    {part : List Row} (hpart : part ⊆ rows) :
    ∃ newPart, List.Forall₂ (Stores engine tableName definition) part newPart ∧ newPart ⊆ news := by
  induction part with
  | nil => exact ⟨[], .nil, by simp⟩
  | cons row part ih =>
    obtain ⟨hrow, hrest⟩ := List.cons_subset.mp hpart
    obtain ⟨newPart, hstored, hsubset⟩ := ih hrest
    obtain ⟨new, hnew, hone⟩ := ExceptList.exists_right_of_forall₂ h hrow
    exact ⟨new :: newPart, .cons hone hstored, List.cons_subset.mpr ⟨hnew, hsubset⟩⟩

end stores

end SQLiteProvider

end DataBridge
