import DataBridge.Framework.Keyed
import DataBridge.Migration.StaticSource
import DataBridge.Workers.MigrationTasks

namespace DataBridge

/-- A statement that the destination server has carried out, with the content of its table before. -/
structure Addition where
  table : String
  content : List Row
  rows : List Row
  deriving DecidableEq

namespace Addition

variable (skips : String → List Row → Row → Bool)

/-- The content of the table after the statement. -/
def result (q : Addition) : List Row := Keyed.insertAll (skips q.table) q.content q.rows

/-- The rows of the statement that the server skipped. -/
def skipped (q : Addition) : Nat := q.content.length + q.rows.length - (q.result skips).length

/-- No row is skipped by the table with the earlier rows of the statement. -/
def Fresh (q : Addition) : Prop := Keyed.Fresh (skips q.table) q.content q.rows

theorem skipped_add (q : Addition) :
    q.skipped skips + (q.result skips).length = q.content.length + q.rows.length := by
  have hbound : (q.result skips).length ≤ q.content.length + q.rows.length :=
    (Keyed.insertAll_length (skips q.table) q.content q.rows).2
  rw [skipped]
  omega

theorem skipped_eq_zero_iff (q : Addition) : q.skipped skips = 0 ↔ q.Fresh skips := by
  have hadd := q.skipped_add skips
  have hall : (q.result skips).length = q.content.length + q.rows.length ↔ q.Fresh skips :=
    Keyed.insertAll_length_eq_iff (skips q.table) q.content q.rows
  rw [← hall]
  omega

end Addition

/-- The source, the destination tables, and what is noted of the destination server: the statements
it accepted, and the number of rows that raising statements kept. -/
structure CountData (S : Type) where
  source : S
  tables : Dict String (List Row)
  accepted : List Addition := []
  kept : Nat := 0

variable {S X α : Type}

namespace CountData

variable (skips : String → List Row → Row → Bool)

def rowCount (d : CountData S) : Nat := d.tables.total List.length

def noteKept (before after : CountData S) : CountData S :=
  { after with
    accepted := before.accepted
    kept := before.kept + (after.rowCount - before.rowCount) }

/-- The rows that accepted statements skipped. -/
def skipped (d : CountData S) : Nat := (d.accepted.map (·.skipped skips)).sum

theorem skipped_eq_zero_iff (d : CountData S) :
    d.skipped skips = 0 ↔ ∀ q ∈ d.accepted, q.Fresh skips := by
  simp [skipped, List.sum_eq_zero_iff_forall_eq_nat, Addition.skipped_eq_zero_iff]

/-- Every row counted was added or skipped, and every row added was counted or kept by a raising
statement; `base` is the row count at the start. -/
def CountsAgree (base : Nat) (d : CountData S) (counted : Nat) : Prop :=
  base + counted + d.kept = d.rowCount + d.skipped skips

end CountData

/-- Two rows of a table with these unique keys conflict. A key with a NULL conflicts with none. -/
def uniqueKeyConflict (keys : List (List String)) (row old : Row) : Bool :=
  keys.any fun key => key.all fun c => row.get c ≠ .none ∧ row.get c = old.get c

/-- A destination server that skips a row of a statement where `skips t` says so of table `t` as it
stands: a row that conflicts with one of the table, or one that a constraint forbids. -/
def skippingEngine (skips : String → List Row → Row → Bool) : Engine (CountData S) :=
  { fetch := fun _ => Call.raise ⟨.other, "not served"⟩
    truncate := fun _ => Call.raise ⟨.other, "not served"⟩
    executemany := fun q d =>
      match d.tables.get? q.table with
      | none => (.raised ⟨.other, s!"no such table: {q.table}"⟩, d)
      | some content =>
        let added : Addition := { table := q.table, content, rows := q.rows }
        (.returned (), { d with
          tables := d.tables.set q.table (added.result skips)
          accepted := d.accepted ++ [added] }) }

def skippingDestination (skips : String → List Row → Row → Bool) :
    BaseDatabaseProvider (CountData S) where
  getTableSchema _ := Call.raise ⟨.other, "not served"⟩
  tableExists t := Call.read fun d => t ∈ d.tables.keys
  fetchBatch := fetchBatch (skippingEngine skips)
  createTable schema := Call.modify fun d =>
    if schema.name ∈ d.tables.keys then d
    else { d with tables := d.tables.set schema.name [] }
  insertBatch := insertBatch (skippingEngine skips)
  truncateTable := (skippingEngine skips).truncate

/-- What `insert_batch` does to a table that exists. -/
theorem skippingDestination_insert (skips : String → List Row → Row → Bool) {d : CountData S}
    {table : String} {content : List Row} (h : d.tables.get? table = some content)
    (rows : List Row) (columns : Option (List String)) :
    ∃ d', (skippingDestination skips).insertBatch table rows columns d =
        (.returned rows.length, d') ∧ d'.kept = d.kept ∧
      d'.rowCount + content.length = d.rowCount +
        (Keyed.insertAll (skips table) content (statementRows table columns rows)).length ∧
      d'.skipped skips + (Keyed.insertAll (skips table) content
        (statementRows table columns rows)).length =
          d.skipped skips + (content.length + rows.length) := by
  cases rows with
  | nil => exact ⟨d, rfl, rfl, rfl, rfl⟩
  | cons first rest =>
    let added : Addition :=
      { table, content, rows := statementRows table columns (first :: rest) }
    have hlen : added.rows.length = (first :: rest).length :=
      statementRows_length table columns (first :: rest)
    have htotal := Dict.total_set_present List.length d.tables table content
      (added.result skips) h
    have hrun : (skippingEngine skips).executemany
        (Insert.ofRows table columns first (first :: rest)) d = (.returned (), { d with
          tables := d.tables.set table (added.result skips)
          accepted := d.accepted ++ [added] }) := by
      have hget : d.tables.get? (Insert.ofRows table columns first (first :: rest)).table =
          some content := h
      simp only [skippingEngine, hget]
      rfl
    refine ⟨{ d with
      tables := d.tables.set table (added.result skips)
      accepted := d.accepted ++ [added] }, ?_, rfl, htotal, ?_⟩
    · change (do
        (skippingEngine skips).executemany (Insert.ofRows table columns first (first :: rest))
        pure (first :: rest).length : Call Exc (CountData S) Nat) d = _
      exact Call.bind_of_returned hrun
    · have hskip := added.skipped_add skips
      have hsum : (d.accepted ++ [added]).map (·.skipped skips) =
          d.accepted.map (·.skipped skips) ++ [added.skipped skips] := by simp
      change ((d.accepted ++ [added]).map (·.skipped skips)).sum +
        (added.result skips).length = d.skipped skips + (content.length + _)
      rw [hsum, List.sum_append, List.sum_singleton, CountData.skipped]
      change added.skipped skips + _ = content.length + _ at hskip
      omega

/-- What `insert_batch` leaves of a table that does not exist. -/
theorem skippingDestination_absent (skips : String → List Row → Row → Bool) {d : CountData S}
    {table : String} (h : d.tables.get? table = none) (rows : List Row) :
    ∃ outcome, (skippingDestination skips).insertBatch table rows none d = (outcome, d) ∧
      (outcome = .returned rows.length ∧ rows = [] ∨ ∃ exc, outcome = .raised exc) := by
  cases rows with
  | nil => exact ⟨_, rfl, Or.inl ⟨rfl, rfl⟩⟩
  | cons first rest =>
    have hget : d.tables.get? (Insert.ofRows table none first (first :: rest)).table = none := h
    have hrun : (skippingEngine skips).executemany
        (Insert.ofRows table none first (first :: rest)) d =
          (.raised ⟨.other, s!"no such table: {table}"⟩, d) := by
      simp only [skippingEngine, hget]
      rfl
    refine ⟨.raised ⟨.other, s!"no such table: {table}"⟩, ?_, Or.inr ⟨_, rfl⟩⟩
    exact Call.bind_of_raised hrun

/-- One run of the executor: any source, any rows that the destination skips, any faults, any
callbacks. -/
structure CountRun (S X : Type) where
  source : BaseDatabaseProvider S
  skips : String → List Row → Row → Bool
  settings : MigrationSettings
  plan : MigrationPlan
  sourceFaults : Faults X := {}
  destinationFaults : Faults X := {}
  onProgress : Option (String → Nat → Nat → Option String → Fault X) := none
  onLog : Option (String → String → Option String → Fault X) := none
  sleep : Nat → Fault X := fun _ e => (none, e)

def CountRun.site (c : CountRun S X) : Site (CountData S) X where
  source := c.source.within CountData.source (fun s d => { d with source := s })
  destination := skippingDestination c.skips
  settings := c.settings
  plan := c.plan
  sourceFaults := c.sourceFaults
  destinationFaults := c.destinationFaults
  notes := { kept := CountData.noteKept }
  onProgress := c.onProgress
  onLog := c.onLog
  sleep := c.sleep

open CountData (CountsAgree)

variable {base n : Nat} {d : CountData S}

private theorem countsAgree_insert (skips : String → List Row → Row → Bool) (table : String)
    (rows : List Row) (h : CountsAgree skips base d n) :
    Call.wp ((skippingDestination skips).insertBatch table rows none)
      ⟨fun _ d' => CountsAgree skips base d' (n + rows.length),
        fun _ d' => CountsAgree skips base d' n, fun _ => False⟩ d := by
  rw [CountsAgree] at h
  cases hget : d.tables.get? table with
  | some content =>
    obtain ⟨d', hrun, hkept, hrows, hskipped⟩ :=
      skippingDestination_insert skips hget rows none
    apply Call.wp_of_eq_returned hrun
    change base + (n + rows.length) + d'.kept = d'.rowCount + d'.skipped skips
    omega
  | none =>
    obtain ⟨outcome, hrun, hcases⟩ := skippingDestination_absent skips hget rows
    rw [Call.wp, hrun]
    rcases hcases with ⟨ho, hempty⟩ | ⟨exc, ho⟩
    · subst ho hempty
      exact h
    · subst ho
      exact h

private theorem countsAgree_kept (skips : String → List Row → Row → Bool) (table : String)
    (rows : List Row) (h : CountsAgree skips base d n) :
    CountsAgree skips base
      (d.noteKept ((skippingDestination skips).insertBatch table rows none d).2) n := by
  rw [CountsAgree] at h ⊢
  cases hget : d.tables.get? table with
  | some content =>
    obtain ⟨d', hrun, hkept, hrows, -⟩ := skippingDestination_insert skips hget rows none
    have hbound := Keyed.insertAll_length (skips table) content (statementRows table none rows)
    rw [hrun]
    change base + n + (d.kept + (d'.rowCount - d.rowCount)) = d'.rowCount + d.skipped skips
    omega
  | none =>
    obtain ⟨outcome, hrun, -⟩ := skippingDestination_absent skips hget rows
    rw [hrun]
    change base + n + (d.kept + (d.rowCount - d.rowCount)) = d.rowCount + d.skipped skips
    omega

private theorem countsAgree_create (skips : String → List Row → Row → Bool) (schema : TableSchema)
    (h : CountsAgree skips base d n) :
    Call.wp ((skippingDestination skips).createTable schema)
      ⟨fun _ d' => CountsAgree skips base d' n, fun _ d' => CountsAgree skips base d' n,
        fun _ => False⟩ d := by
  change CountsAgree skips base (if schema.name ∈ d.tables.keys then d
    else { d with tables := d.tables.set schema.name [] }) n
  split
  · exact h
  · rename_i hnew
    have htotal := Dict.total_set_absent List.length d.tables schema.name ([] : List Row) hnew
    rw [CountsAgree] at h ⊢
    change base + n + d.kept = (d.tables.set schema.name []).total List.length + d.skipped skips
    rw [htotal]
    exact h

section run

variable (c : CountRun S X)

private theorem countsAgree_source (call : Call Exc S α) (h : CountsAgree c.skips base d n) :
    Call.wp (Call.zoom CountData.source (fun s d => { d with source := s }) call)
      ⟨fun _ d' => CountsAgree c.skips base d' n,
        fun _ d' => CountsAgree c.skips base d' n, fun _ => True⟩ d := by
  rw [Call.wp_zoom]
  exact Call.wp_of_forall (fun _ _ => h) (fun _ _ => h) (fun _ => trivial)

/-- One table keeps the balance, whatever the source answers and whichever calls raise. -/
private theorem dwp_balanced (fuel : Nat) (tp : MigrationTablePlan)
    (htruncate : c.settings.truncateDestination = false) (h : CountsAgree c.skips base d n) :
    dwp (c.site.executor.migrateTable fuel tp)
      ⟨fun _ d' n' => CountsAgree c.skips base d' n',
        fun d' n' => CountsAgree c.skips base d' n', True⟩ d n := by
  refine dwp_migrateTable c.site fuel tp (CountsAgree c.skips base · n)
    (CountsAgree c.skips base · n) (CountsAgree c.skips base · n) (fun _ => h)
    (fun _ => h) (fun _ => ⟨fun _ => h, countsAgree_create c.skips tp.sourceSchema h⟩)
    (fun _ h _ => h) (fun _ h => ⟨h, fun _ => h⟩) (fun _ h _ => h) ?_ (fun _ h _ => h) (fun _ h _ => h) ?_
  · intro d' _ ht
    exact absurd (htruncate.symm.trans ht) (by decide)
  · intro d₀ h₀ _
    refine dwp_loop_weak (fun _ d' n' => CountsAgree c.skips base d' n') ?_ trivial h₀
    intro v d' m hm
    refine dwp_copyPass c.site tp v (fun _ d'' => CountsAgree c.skips base d'' m)
      (CountsAgree c.skips base · m) (countsAgree_source c _ hm) (fun _ => hm)
      (fun _ h => ⟨fun _ => h, fun _ => h, fun _ => h⟩) (fun _ h => ⟨h, fun _ => h⟩) ?_
    intro batch d'' _ hb
    refine ⟨fun _ _ => hb, ?_⟩
    intro rows hrows
    have hlen := MigrationExecutor.transform_length hrows
    refine dwp_insertWithRetry c.site tp.tableName rows (CountsAgree c.skips base · m)
      (CountsAgree c.skips base · (m + rows.length)) (CountsAgree c.skips base · m)
      ?_ ?_ (fun _ h => h) ?_ (fun _ h => ⟨h, fun _ => h⟩) hb
    · exact fun d₁ h₁ => countsAgree_insert c.skips tp.tableName rows h₁
    · exact fun d₁ k _ h₁ => countsAgree_kept c.skips tp.tableName (rows.take k) h₁
    · intro d₁ h₁
      rw [hlen] at h₁
      exact ⟨h₁, fun _ => h₁⟩

private theorem dwp_run_balanced (fuel : Nat) (htruncate : c.settings.truncateDestination = false)
    (h : CountsAgree c.skips base d n) :
    dwp (c.site.executor.run fuel)
      ⟨fun results d' _ => CountsAgree c.skips base d' results.totalRowsMigrated,
        fun d' n' => CountsAgree c.skips base d' n', True⟩ d n := by
  refine dwp_run c.site fuel (fun _ _ d' n' => CountsAgree c.skips base d' n') ?_ ?_
    (fun _ _ _ h => h) h
  · exact fun _ _ _ _ _ _ _ _ h => ⟨h, fun _ => h⟩
  · intro pre tp post results d' n' _ _ h'
    refine dwp_mono (dwp_balanced c fuel tp htruncate h') ?_ (fun _ _ h => h)
    intro ok d'' n'' h''
    dsimp only
    cases c.site.executor.afterTable results tp ok with
    | again results' => exact h''
    | done results' => exact h''

/-- `insert_batch` reports the length of its batch, which is the number of rows added just when no
row is skipped: where rows are skipped for conflicts, when none conflicts with the table or an earlier
row. Over a run without truncation the reported total (and the `processed_rows` finalising persists)
plus the rows kept by raising statements is the increase of the row counts plus the rows that accepted
statements skipped. So where raising statements keep nothing, the total is the increase just when
every accepted statement was fresh. -/
theorem reported_counts (htruncate : c.settings.truncateDestination = false) :
    (∀ (d : CountData S) (table : String) (content rows : List Row)
      (columns : Option (List String)), d.tables.get? table = some content →
      ∃ d', (skippingDestination c.skips).insertBatch table rows columns d =
          (.returned rows.length, d') ∧
        (d'.rowCount = d.rowCount + rows.length ↔
          Keyed.Fresh (c.skips table) content (statementRows table columns rows))) ∧
    (∀ (conflict : Row → Row → Bool) (content rows : List Row),
      Keyed.Fresh (Keyed.conflicting conflict) content rows ↔
        (∀ row ∈ rows, ∀ old ∈ content, conflict row old = false) ∧
          rows.Pairwise fun earlier later => conflict later earlier = false) ∧
    ∀ (fuel : Nat) (s s' : SiteState (CountData S) X) (results : ExecResult),
      s.totalRowsProcessed = 0 → s.world.data.accepted = [] → s.world.data.kept = 0 →
      c.site.executor.run fuel s = (.returned results, s') →
      s.world.data.rowCount + results.totalRowsMigrated + s'.world.data.kept =
          s'.world.data.rowCount + s'.world.data.skipped c.skips ∧
        (s'.world.data.rowCount = s.world.data.rowCount + results.totalRowsMigrated ↔
          s'.world.data.skipped c.skips = s'.world.data.kept) ∧
        (s'.world.data.kept = 0 →
          (s'.world.data.rowCount = s.world.data.rowCount + results.totalRowsMigrated ↔
            ∀ q ∈ s'.world.data.accepted, q.Fresh c.skips)) ∧
        ∀ record now, (finalRecord record results now).processedRows =
          results.totalRowsMigrated := by
  refine ⟨?_, Keyed.fresh_conflicting_iff, ?_⟩
  · intro d table content rows columns hget
    obtain ⟨d', hrun, -, hrows, -⟩ := skippingDestination_insert c.skips hget rows columns
    have hfresh := Keyed.insertAll_length_eq_iff (c.skips table) content
      (statementRows table columns rows)
    rw [statementRows_length] at hfresh
    refine ⟨d', hrun, ?_⟩
    rw [← hfresh]
    omega
  · intro fuel s s' results hcounter haccepted hkept hrun
    have hstart : CountsAgree c.skips s.world.data.rowCount s.world.data
        s.totalRowsProcessed := by
      rw [CountsAgree, CountData.skipped, hcounter, haccepted, hkept]
      rfl
    have hend := Call.wp_of_returned (dwp_run_balanced c fuel htruncate hstart s.world.env) hrun
    have hbalance : s.world.data.rowCount + results.totalRowsMigrated + s'.world.data.kept =
        s'.world.data.rowCount + s'.world.data.skipped c.skips := hend
    refine ⟨hbalance, by omega, ?_, fun _ _ => rfl⟩
    intro hnothing
    have hfresh := s'.world.data.skipped_eq_zero_iff c.skips
    rw [← hfresh]
    omega

end run

/-- One source row, already present in the destination under its primary key. -/
def repeatedRow : Row := Dict.ofList [("id", .int 1)]

def repeatedRun : CountRun Unit Unit where
  source := staticSource [repeatedRow]
  skips := fun _ => Keyed.conflicting (uniqueKeyConflict [["id"]])
  settings := {}
  plan := {
    tables := [{ tableName := "users", sourceSchema := { name := "users", columns := [] } }]
    totalRows := 1 }

def repeatedStart : SiteState (CountData Unit) Unit :=
  ⟨⟨{ source := (), tables := Dict.empty.set "users" [repeatedRow] }, ()⟩, 0⟩

/-- The skipped row is reported by the insert, by the run and by the record. -/
theorem repeatedRun_miscounts :
    ((skippingDestination repeatedRun.skips).insertBatch "users" [repeatedRow] none
        repeatedStart.world.data).1 = .returned 1 ∧
      ((skippingDestination repeatedRun.skips).insertBatch "users" [repeatedRow] none
        repeatedStart.world.data).2.rowCount = repeatedStart.world.data.rowCount ∧
      (repeatedRun.site.executor.run 3 repeatedStart).1 =
        .returned { completedTables := ["users"], totalRowsMigrated := 1 } ∧
      (repeatedRun.site.executor.run 3 repeatedStart).2.world.data.rowCount =
        repeatedStart.world.data.rowCount := by
  decide

theorem reported_counts_repeated :
    (∃ d', (skippingDestination repeatedRun.skips).insertBatch "users" [repeatedRow] none
        repeatedStart.world.data = (.returned 1, d') ∧
      d'.rowCount ≠ repeatedStart.world.data.rowCount + 1) ∧
    ¬ ∀ q ∈ (repeatedRun.site.executor.run 3 repeatedStart).2.world.data.accepted,
      q.Fresh repeatedRun.skips := by
  obtain ⟨hinsert, -, htotals⟩ := reported_counts repeatedRun rfl
  constructor
  · obtain ⟨d', hrun, hiff⟩ := hinsert repeatedStart.world.data "users" [repeatedRow] [repeatedRow]
      none rfl
    refine ⟨d', hrun, ?_⟩
    intro hadded
    have hfresh := hiff.mp hadded [] repeatedRow [] rfl
    exact absurd hfresh (by decide)
  · have hrun : repeatedRun.site.executor.run 3 repeatedStart =
        (.returned { completedTables := ["users"], totalRowsMigrated := 1 },
          (repeatedRun.site.executor.run 3 repeatedStart).2) := Prod.ext (by decide) rfl
    obtain ⟨-, -, hcounts, -⟩ := htotals 3 repeatedStart _ _ rfl rfl rfl hrun
    rw [← hcounts (by decide)]
    decide

end DataBridge
