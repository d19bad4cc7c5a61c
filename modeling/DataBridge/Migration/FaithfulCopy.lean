import DataBridge.Migration.StaticSource

namespace DataBridge

/-- The rows given to the destination table, and every batch handed to `insert_batch`. -/
structure CopyData where
  appended : List Row
  handed : List (List Row)
  deriving DecidableEq

/-- A destination table that takes every row a statement asks it to add. -/
def appendingDestination : BaseDatabaseProvider CopyData :=
  { Engine.provider { Engine.idle with
      executemany := fun q => Call.modify fun d => { d with appended := d.appended ++ q.rows } } with
    createTable := fun _ => pure () }

/-- One copy of a static table under arbitrary faults and callbacks. -/
structure CopyRun (X : Type) where
  rows : List Row
  settings : MigrationSettings
  createFault : Fault X := fun e => (none, e)
  fetchFault : Fault X := fun e => (none, e)
  insertFault : Fault X := fun e => (none, e)
  onProgress : Option (String → Nat → Nat → Option String → Fault X) := none
  onLog : Option (String → String → Option String → Fault X) := none
  sleep : Nat → Fault X := fun _ e => (none, e)

variable {X : Type}

def CopyRun.site (c : CopyRun X) : Site CopyData X where
  source := staticSource c.rows
  destination := appendingDestination
  settings := c.settings
  sourceFaults := { fetchBatch := c.fetchFault }
  destinationFaults := { createTable := c.createFault, insertBatch := atomicInsert c.insertFault }
  notes := { given := fun rows d => { d with handed := d.handed ++ [rows] } }
  onProgress := c.onProgress
  onLog := c.onLog
  sleep := c.sleep

/-- All rows of a batch have the columns `cols`, and the statement `insert_batch` builds from the
first of them asks for exactly these rows. -/
def FaithfulBatch (table : String) (cols : List String) (batch : List Row) : Prop :=
  (∀ r ∈ batch, r.keys = cols) ∧
    ∀ first ∈ batch.head?, (Insert.ofRows table none first batch).rows = batch

theorem faithfulBatch_of_keys (table : String) {cols : List String} {batch : List Row}
    (h : ∀ r ∈ batch, r.keys = cols) : FaithfulBatch table cols batch := by
  refine ⟨h, ?_⟩
  intro first hfirst
  apply Insert.rows_ofRows
  intro r hr
  rw [h r hr, h first (List.mem_of_mem_head? hfirst)]

theorem atomicInsert_keeps_none {f : Fault X} {e : X} {exc : Exc} {k : Nat}
    (h : (atomicInsert f e).1 = some (exc, k)) : k = 0 := by
  rw [atomicInsert] at h
  cases hf : (f e).1 with
  | none => simp [hf] at h
  | some exc' =>
    simp only [hf, Option.map_some, Option.some.injEq, Prod.mk.injEq] at h
    exact h.2.symm

/-- The state of the copy once `o` rows of `target` are accepted. -/
def CopiedPrefix (table : String) (cols : List String) (target : List Row) (start : CopyData)
    (o : Nat) (d : CopyData) : Prop :=
  d.appended = start.appended ++ target.take o ∧
    ∀ b ∈ d.handed, b ∈ start.handed ∨ FaithfulBatch table cols b

private theorem copiedPrefix_given {table : String} {cols : List String} {target : List Row}
    {start d : CopyData} {o : Nat} {batch : List Row} (h : CopiedPrefix table cols target start o d)
    (hb : FaithfulBatch table cols batch) :
    CopiedPrefix table cols target start o { d with handed := d.handed ++ [batch] } := by
  refine ⟨h.1, ?_⟩
  intro b hmem
  rcases List.mem_append.mp hmem with hold | hnew
  · exact h.2 b hold
  · have he : b = batch := by simpa using hnew
    exact Or.inr (he ▸ hb)

private theorem appendingDestination_insert {table : String} {cols : List String}
    {target batch : List Row} {start d : CopyData} {o : Nat}
    (h : CopiedPrefix table cols target start o d) (hb : FaithfulBatch table cols batch)
    (hnext : target.take o ++ batch = target.take (o + batch.length)) :
    Call.wp (appendingDestination.insertBatch table batch none)
      ⟨fun _ d' => CopiedPrefix table cols target start (o + batch.length) d',
        fun _ d' => CopiedPrefix table cols target start o d', fun _ => False⟩ d := by
  cases batch with
  | nil => exact h
  | cons first rest =>
    have hrows : (Insert.ofRows table none first (first :: rest)).rows = first :: rest :=
      hb.2 first rfl
    change CopiedPrefix table cols target start (o + (first :: rest).length)
      { d with appended := d.appended ++ (Insert.ofRows table none first (first :: rest)).rows }
    rw [hrows]
    refine ⟨?_, h.2⟩
    change d.appended ++ _ = _
    rw [h.1, List.append_assoc, hnext]

private theorem dwp_faithfulCopy (c : CopyRun X) (tp : MigrationTablePlan) (fuel : Nat)
    {target : List Row} (hbatch : 0 < c.settings.batchSize) (hdata : c.settings.includeData = true)
    (htruncate : c.settings.truncateDestination = false) {cols : List String}
    (hcols : ∀ r ∈ target, r.keys = cols)
    (htarget : MigrationExecutor.transform tp.columnMappings c.rows = .ok target)
    (hfuel : copyFuel c.rows.length c.settings ≤ fuel) (start : CopyData) (n : Nat) :
    dwp (c.site.executor.migrateTable fuel tp)
      ⟨fun ok d' m => match ok with
        | true => CopiedPrefix tp.tableName cols target start target.length d' ∧
            m = n + target.length
        | false => ∃ o ≤ target.length, CopiedPrefix tp.tableName cols target start o d' ∧ m = n + o,
        fun d' m => ∃ o ≤ target.length, CopiedPrefix tp.tableName cols target start o d' ∧
          m = n + o, False⟩ start n := by
  have hstart : CopiedPrefix tp.tableName cols target start 0 start :=
    ⟨by simp, fun b hb => Or.inl hb⟩
  have hwindow : ∀ o, FaithfulBatch tp.tableName cols (window target o c.settings.batchSize) :=
    fun o => faithfulBatch_of_keys _ fun r hr =>
      hcols r (List.mem_of_mem_drop (List.mem_of_mem_take hr))
  have hsteps : CopySteps c.site tp.tableName target (CopiedPrefix tp.tableName cols target start)
      (CopiedPrefix tp.tableName cols target start) := by
    refine ⟨?_, ?_, fun _ _ h => h⟩
    · intro o d _ hj
      exact appendingDestination_insert (copiedPrefix_given hj (hwindow o)) (hwindow o)
        (take_append_window target o c.settings.batchSize)
    · intro o d k _ hk hj
      obtain ⟨e, exc, hkeep⟩ := hk
      have hk0 : k = 0 := atomicInsert_keeps_none hkeep
      subst hk0
      exact copiedPrefix_given hj (hwindow o)
  exact dwp_copyTable c.site tp (staticSource_serves _ _) htarget hbatch hsteps hdata htruncate
    rfl hfuel n hstart

/-- A copy of a static table with fetches and inserts that fail in any pattern: a `True` result
means the whole transformed table was appended in order, a `False` one a prefix of it; the
counter grew by the rows appended; and no batch loses a value to the way its statement is built. -/
theorem migrateTable_faithful (c : CopyRun X) (tp : MigrationTablePlan)
    (s : SiteState CopyData X) (fuel : Nat) (hbatch : 0 < c.settings.batchSize)
    (hdata : c.settings.includeData = true) (htruncate : c.settings.truncateDestination = false)
    (hincluded : ∃ m ∈ tp.columnMappings, m.included = true)
    (hdistinct : (tp.columnMappings.map (·.destCol)).Nodup)
    (hcoerce : ∀ row ∈ c.rows, ∀ m ∈ tp.columnMappings, m.included = true →
      ∃ v, coerce (row.get m.sourceCol) m.destType = .ok v)
    (hfuel : copyFuel c.rows.length c.settings ≤ fuel) :
    ∃ target, applyMappings c.rows tp.columnMappings = .ok target ∧
      (c.site.executor.migrateTable fuel tp s).1 ≠ .exhausted ∧
      (∀ s', c.site.executor.migrateTable fuel tp s = (.returned true, s') →
        s'.world.data.appended = s.world.data.appended ++ target ∧
        s'.totalRowsProcessed = s.totalRowsProcessed + target.length) ∧
      (∀ s', c.site.executor.migrateTable fuel tp s = (.returned false, s') →
        ∃ copied, copied <+: target ∧
          s'.world.data.appended = s.world.data.appended ++ copied ∧
          s'.totalRowsProcessed = s.totalRowsProcessed + copied.length) ∧
      ∀ o s', c.site.executor.migrateTable fuel tp s = (o, s') →
        ∀ batch ∈ s'.world.data.handed, batch ∈ s.world.data.handed ∨
          FaithfulBatch tp.tableName ((activeMappings tp.columnMappings).map (·.destCol)) batch := by
  have hrow : ∀ row ∈ c.rows, ∃ new, transformRow (activeMappings tp.columnMappings) row = .ok new := by
    intro row hmem
    apply transformRow_exists
    intro m hm
    obtain ⟨hm', hi⟩ := List.mem_filter.mp hm
    exact hcoerce row hmem m hm' hi
  obtain ⟨target, htarget⟩ := ExceptList.mapM_exists hrow
  have htransform : MigrationExecutor.transform tp.columnMappings c.rows = .ok target :=
    (MigrationExecutor.transform_of_included hincluded c.rows).trans htarget
  have hnodup : ((activeMappings tp.columnMappings).map (·.destCol)).Nodup :=
    hdistinct.sublist (List.filter_sublist.map _)
  have hcols : ∀ r ∈ target, r.keys = (activeMappings tp.columnMappings).map (·.destCol) := by
    intro r hr
    obtain ⟨row, -, hrun⟩ := ExceptList.mapM_source htarget hr
    exact transformRow_keys hnodup hrun
  have hwp := dwp_faithfulCopy c tp fuel hbatch hdata htruncate hcols htransform hfuel
    s.world.data s.totalRowsProcessed s.world.env
  have htake : ∀ o ≤ target.length, (target.take o).length = o := by
    intro o ho
    rw [List.length_take]
    omega
  refine ⟨target, htarget, ?_, ?_, ?_, ?_⟩
  · intro hx
    have hrun : c.site.executor.migrateTable fuel tp s =
        (.exhausted, (c.site.executor.migrateTable fuel tp s).2) := Prod.ext hx rfl
    exact Call.wp_of_exhausted hwp hrun
  · intro s' hrun
    obtain ⟨hcopied, htotal⟩ := Call.wp_of_returned hwp hrun
    exact ⟨by simpa using hcopied.1, htotal⟩
  · intro s' hrun
    obtain ⟨o, ho, hcopied, htotal⟩ := Call.wp_of_returned hwp hrun
    exact ⟨target.take o, List.take_prefix o target, hcopied.1, by rw [htake o ho]; exact htotal⟩
  · intro o s' hrun batch hmem
    cases o with
    | exhausted => exact (Call.wp_of_exhausted hwp hrun).elim
    | raised exc =>
      obtain ⟨o, -, hcopied, -⟩ := Call.wp_of_raised hwp hrun
      exact hcopied.2 batch hmem
    | returned ok =>
      cases ok with
      | true => exact (Call.wp_of_returned hwp hrun).1.2 batch hmem
      | false =>
        obtain ⟨o, -, hcopied, -⟩ := Call.wp_of_returned hwp hrun
        exact hcopied.2 batch hmem

/-- Three rows in batches of two; the first fetch and the first insert raise. -/
def flakyCopy : CopyRun Nat where
  rows := [1, 2, 3].map fun i => Dict.ofList [("id", .int i), ("note", .str "n")]
  settings := { batchSize := 2, maxRetries := 1 }
  fetchFault := fun e => (if e = 0 then some ⟨.other, "connection reset"⟩ else none, e + 1)
  insertFault := fun e => (if e = 2 then some ⟨.other, "deadlock"⟩ else none, e + 1)

def idOnlyTable : MigrationTablePlan where
  tableName := "users"
  sourceSchema := { name := "users", columns := [] }
  columnMappings := [
    { sourceCol := "id", destCol := "id", sourceType := "INTEGER", destType := "BIGINT",
      included := true },
    { sourceCol := "note", destCol := "note", sourceType := "TEXT", destType := "TEXT",
      included := false }]

theorem migrateTable_faithful_flaky :
    ∃ target s', applyMappings flakyCopy.rows idOnlyTable.columnMappings = .ok target ∧
      flakyCopy.site.executor.migrateTable 8 idOnlyTable ⟨⟨⟨[], []⟩, 0⟩, 0⟩ =
        (.returned true, s') ∧
      s'.world.data.appended = target ∧ s'.totalRowsProcessed = 0 + target.length := by
  have hcoerce : ∀ row ∈ flakyCopy.rows, ∀ m ∈ idOnlyTable.columnMappings, m.included = true →
      ∃ v, coerce (row.get m.sourceCol) m.destType = .ok v := by
    intro row hrow m hm hi
    have hm' : m = idOnlyTable.columnMappings[0] := by
      rcases List.mem_pair.mp hm with h | h
      · exact h
      · rw [h] at hi
        exact absurd hi (by decide)
    subst hm'
    obtain ⟨i, -, hi⟩ := List.mem_map.mp hrow
    subst hi
    exact ⟨.int i, rfl⟩
  obtain ⟨target, htarget, -, htrue, -⟩ := migrateTable_faithful flakyCopy idOnlyTable
    ⟨⟨⟨[], []⟩, 0⟩, 0⟩ 8 (by decide) rfl rfl ⟨_, List.mem_cons_self, rfl⟩ (by decide) hcoerce
    (by decide)
  have hrun : flakyCopy.site.executor.migrateTable 8 idOnlyTable ⟨⟨⟨[], []⟩, 0⟩, 0⟩ =
      (.returned true, (flakyCopy.site.executor.migrateTable 8 idOnlyTable
        ⟨⟨⟨[], []⟩, 0⟩, 0⟩).2) := Prod.ext (by decide) rfl
  exact ⟨target, _, htarget, hrun, htrue _ hrun⟩

end DataBridge
