import DataBridge.Framework.PyText
import DataBridge.Providers.BaseProvider

namespace DataBridge

inductive Dialect where
  | postgres
  | mysql
  | sqlite
  deriving DecidableEq, Repr

/-- An identifier as the statement builders write it: between quotes, with nothing escaped. -/
def Dialect.quote (d : Dialect) (name : String) : String :=
  match d with
  | .mysql => s!"`{name}`"
  | .postgres | .sqlite => s!"\"{name}\""

/-- The placeholder of parameter `i`, counted from 0. -/
def Dialect.placeholder (d : Dialect) (i : Nat) : String :=
  match d with
  | .postgres => s!"${i + 1}"
  | .mysql => "%s"
  | .sqlite => "?"

/-- The query of `fetch_batch`: no WHERE and no ORDER BY. -/
structure Select where
  columns : Option (List String)
  table : String
  limit : Nat
  offset : Nat
  deriving DecidableEq, Repr

def Select.text (q : Select) (d : Dialect) : String :=
  let cols := match q.columns with
    | none | some [] => "*"
    | some cs => PyText.commaJoin (cs.map d.quote)
  s!"SELECT {cols} FROM {d.quote q.table} LIMIT {d.placeholder 0} OFFSET {d.placeholder 1}"

/-- The statement of `insert_batch` with the records `executemany` gives it. A record that
conflicts with a row of the table is skipped in every dialect. -/
structure Insert where
  table : String
  columns : List String
  records : List (List Value)
  deriving DecidableEq

def Insert.text (q : Insert) (d : Dialect) : String :=
  let quotedCols := PyText.commaJoin (q.columns.map d.quote)
  let placeholders := PyText.commaJoin ((List.range q.columns.length).map d.placeholder)
  let target := s!"{d.quote q.table} ({quotedCols}) VALUES ({placeholders})"
  match d with
  | .postgres => s!"INSERT INTO {target} ON CONFLICT DO NOTHING"
  | .mysql => s!"INSERT IGNORE INTO {target}"
  | .sqlite => s!"INSERT OR IGNORE INTO {target}"

/-- The statement `insert_batch` builds for a batch whose first row is `first`. -/
def Insert.ofRows (table : String) (columns : Option (List String)) (first : Row)
    (rows : List Row) : Insert :=
  let cols := match columns with
    | none | some [] => first.keys
    | some cs => cs
  { table := table, columns := cols, records := rows.map fun r => cols.map r.get }

/-- The rows a statement asks to add. -/
def Insert.rows (q : Insert) : List Row := q.records.map fun r => Dict.ofList (q.columns.zip r)

def truncateText (d : Dialect) (table : String) : String :=
  match d with
  | .postgres => s!"TRUNCATE TABLE {d.quote table} RESTART IDENTITY CASCADE"
  | .mysql => s!"TRUNCATE TABLE {d.quote table}"
  | .sqlite => s!"DELETE FROM {d.quote table}"

/-- A database server: what it does with the statements the providers send. -/
structure Engine (W : Type) where
  fetch : Select → Call Exc W (List Row)
  executemany : Insert → Call Exc W Unit
  truncate : String → Call Exc W Unit

/-- `fetch_batch`, the same in the three providers but for the quoting of the text. -/
def fetchBatch {W : Type} (e : Engine W) (tableName : String) (offset limit : Nat)
    (columns : Option (List String)) : Call Exc W (List Row) :=
  e.fetch { columns := columns, table := tableName, limit := limit, offset := offset }

/-- `insert_batch`, the same in the three providers but for the text. It reports the length of
the batch, whatever the statement skipped. -/
def insertBatch {W : Type} (e : Engine W) (tableName : String) (rows : List Row)
    (columns : Option (List String)) : Call Exc W Nat :=
  match rows with
  | [] => pure 0
  | first :: _ => do
    e.executemany (Insert.ofRows tableName columns first rows)
    pure rows.length

/-- The rows the statement of a batch asks to add. -/
def statementRows (table : String) (columns : Option (List String)) (rows : List Row) : List Row :=
  match rows with
  | [] => []
  | first :: _ => (Insert.ofRows table columns first rows).rows

theorem statementRows_length (table : String) (columns : Option (List String)) (rows : List Row) :
    (statementRows table columns rows).length = rows.length := by
  cases rows with
  | nil => rfl
  | cons first rest => simp [statementRows, Insert.rows, Insert.ofRows]

/-- Zipping the keys of a row with its values gives the row back. -/
theorem rowOf_keys (r : Row) : Dict.ofList (r.keys.zip (r.keys.map r.get)) = r := by
  have hz : r.keys.zip (r.keys.map r.get) = r.entries := by
    apply List.ext_getElem
    · simp [Dict.keys]
    · intro i hi hj
      have hg : r.get? (r.entries[i]).1 = some (r.entries[i]).2 :=
        (Dict.get?_eq_some_iff r _ _).mpr (List.getElem_mem hj)
      simp [Dict.keys, Row.get, hg]
  apply Dict.ext
  rw [hz, Dict.entries_ofList _ r.nodup]

/-- A batch whose rows all have the keys of the first one is what its statement asks to add. -/
theorem Insert.rows_ofRows (table : String) (first : Row) (rows : List Row)
    (h : ∀ r ∈ rows, r.keys = first.keys) : (Insert.ofRows table none first rows).rows = rows := by
  rw [Insert.rows, Insert.ofRows]
  rw [List.map_map]
  conv_rhs => rw [← List.map_id rows]
  apply List.map_congr_left
  intro r hr
  simp only [Function.comp_apply, ← h r hr, rowOf_keys, id]

example : ({ columns := some ["id", "n"], table := "t", limit := 2, offset := 4 } : Select).text
    .postgres = "SELECT \"id\", \"n\" FROM \"t\" LIMIT $1 OFFSET $2" := by decide

end DataBridge
