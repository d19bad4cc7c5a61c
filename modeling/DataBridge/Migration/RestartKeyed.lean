import DataBridge.Framework.Keyed
import DataBridge.Migration.Restart

namespace DataBridge

/-- The values of the key columns. -/
def Row.key (keyColumns : List String) (row : Row) : List Value := keyColumns.map row.get

/-- A table and the contents it had before each row that reached it. -/
structure KeyedData where
  content : List Row
  past : List (List Row)
  deriving DecidableEq

namespace KeyedData

variable (keyColumns : List String)

/-- Every content the table has had, the current one last. -/
def timeline (d : KeyedData) : List (List Row) := d.past ++ [d.content]

/-- One row of a statement: it is skipped where its key is present. -/
def addRow (d : KeyedData) (row : Row) : KeyedData :=
  { content := Keyed.insert (Keyed.sameKey (Row.key keyColumns)) d.content row
    past := d.timeline }

def addAll (d : KeyedData) (rows : List Row) : KeyedData := rows.foldl (addRow keyColumns) d

end KeyedData

/-- A destination table with a unique constraint on its key columns. -/
def uniqueDestination (keyColumns : List String) : BaseDatabaseProvider KeyedData :=
  { Engine.provider { Engine.idle with
      executemany := fun q => Call.modify fun d => d.addAll keyColumns q.rows } with
    createTable := fun _ => pure () }

/-- One table with a primary key, copied again and again. -/
structure KeyedRestart (X : Type) extends RestartRun X where
  keyColumns : List String

variable {X : Type}

namespace KeyedRestart

def site (c : KeyedRestart X) : Site KeyedData X where
  source := staticSource c.rows
  destination := uniqueDestination c.keyColumns
  settings := c.settings
  sourceFaults := { fetchBatch := c.fetchFault }
  destinationFaults := { createTable := c.createFault, insertBatch := c.insertFault }
  onProgress := c.onProgress
  onLog := c.onLog
  sleep := c.sleep

/-- The table's part of one execution of the task: a new executor, so offset and counter are 0. -/
def attempt (c : KeyedRestart X) (fuel : Nat) (tp : MigrationTablePlan) (w : World KeyedData X) :
    Outcome Exc Bool × World KeyedData X :=
  let r := c.site.executor.migrateTable fuel tp ⟨w, 0⟩
  (r.1, r.2.world)

/-- The world after `k` attempts, each followed by a restart. -/
def afterAttempts (c : KeyedRestart X) (fuel : Nat) (tp : MigrationTablePlan) :
    Nat → World KeyedData X → World KeyedData X
  | 0, w => w
  | k + 1, w =>
    let w' := (c.attempt fuel tp (c.afterAttempts fuel tp k w)).2
    { w' with env := c.between w'.env }

end KeyedRestart

namespace KeyedData

variable (keyColumns : List String)

theorem addAll_append (d : KeyedData) (rows more : List Row) :
    d.addAll keyColumns (rows ++ more) = (d.addAll keyColumns rows).addAll keyColumns more :=
  List.foldl_append

theorem addAll_content (d : KeyedData) (rows : List Row) :
    (d.addAll keyColumns rows).content =
      Keyed.insertAll (Keyed.sameKey (Row.key keyColumns)) d.content rows := by
  induction rows generalizing d with
  | nil => rfl
  | cons row rows ih => exact ih (d.addRow keyColumns row)

/-- What adding one row of `target` keeps, adding many of them keeps. -/
theorem addAll_keeps {P : KeyedData → Prop} {target rows : List Row}
    (hrow : ∀ d, ∀ row ∈ target, P d → P (d.addRow keyColumns row)) (hrows : rows ⊆ target)
    {d : KeyedData} (h : P d) : P (d.addAll keyColumns rows) := by
  induction rows generalizing d with
  | nil => exact h
  | cons row rows ih =>
    obtain ⟨hfirst, hrest⟩ := List.cons_subset.mp hrows
    exact ih hrest (hrow d row hfirst h)

/-- The table has at all times been a duplicate-free part of `target`, and has never shrunk. -/
structure Safe (target : List Row) (d : KeyedData) : Prop where
  part : ∀ content ∈ d.timeline, content.Nodup ∧ content ⊆ target
  grows : d.timeline.Pairwise (· <+: ·)

theorem Safe.content {target : List Row} {d : KeyedData} (h : d.Safe target) :
    d.content.Nodup ∧ d.content ⊆ target := h.part d.content (by simp [timeline])

theorem safe_empty (target : List Row) : Safe target ⟨[], []⟩ := by
  constructor <;> simp [timeline]

theorem Safe.addRow {target : List Row} {d : KeyedData} (h : d.Safe target) {row : Row}
    (hrow : row ∈ target) : (d.addRow keyColumns row).Safe target := by
  obtain ⟨hnodup, hsub⟩ := h.content
  have hprefix := Keyed.prefix_insert (Keyed.sameKey (Row.key keyColumns)) d.content row
  constructor
  · intro content hmem
    rcases List.mem_append.mp hmem with hold | hnew
    · exact h.part content hold
    · have he : content = _ := List.mem_singleton.mp hnew
      subst he
      exact ⟨Keyed.insert_nodup _ row hnodup, Keyed.insert_subset _ hsub hrow⟩
  · have hlast : ∀ content ∈ d.timeline, content <+: d.content := by
      intro content hmem
      rcases List.mem_append.mp hmem with hold | hcur
      · have hpair := List.pairwise_append.mp h.grows
        exact hpair.2.2 content hold d.content (by simp)
      · have he : content = d.content := List.mem_singleton.mp hcur
        exact he ▸ List.prefix_rfl
    refine List.pairwise_append.mpr ⟨h.grows, List.pairwise_singleton _ _, ?_⟩
    intro content hmem new hnew
    have he : new = _ := List.mem_singleton.mp hnew
    subst he
    exact (hlast content hmem).trans hprefix

/-- Once all of `target` is there, its rows change nothing any more. -/
theorem addAll_full {target rows : List Row} (hrows : rows ⊆ target) {d : KeyedData}
    (h : target ⊆ d.content) :
    ∃ n, (d.addAll keyColumns rows).timeline = d.timeline ++ List.replicate n d.content := by
  have hkeeps : ∀ d' : KeyedData, ∀ row ∈ target,
      (d'.content = d.content ∧ ∃ n, d'.timeline = d.timeline ++ List.replicate n d.content) →
      ((d'.addRow keyColumns row).content = d.content ∧
        ∃ n, (d'.addRow keyColumns row).timeline = d.timeline ++ List.replicate n d.content) := by
    intro d' row hrow hd'
    obtain ⟨hcontent, n, htimeline⟩ := hd'
    have hsame : (d'.addRow keyColumns row).content = d.content := by
      have hmem : row ∈ d'.content := hcontent ▸ h hrow
      exact (Keyed.insert_of_mem (Row.key keyColumns) hmem).trans hcontent
    refine ⟨hsame, n + 1, ?_⟩
    change d'.timeline ++ [(d'.addRow keyColumns row).content] = _
    rw [htimeline, hsame, List.append_assoc, List.replicate_succ']
  have hstart : d.content = d.content ∧
      ∃ n, d.timeline = d.timeline ++ List.replicate n d.content := ⟨rfl, 0, by simp⟩
  exact (addAll_keeps keyColumns hkeeps hrows hstart).2

end KeyedData

/-- What `insert_batch` does with rows that all have the columns of the first one. -/
private theorem uniqueDestination_insert (keyColumns : List String) (table : String)
    {cols : List String} {batch : List Row} (hcols : ∀ r ∈ batch, r.keys = cols) (d : KeyedData) :
    (uniqueDestination keyColumns).insertBatch table batch none d =
      (.returned batch.length, d.addAll keyColumns batch) := by
  cases batch with
  | nil => rfl
  | cons first rest =>
    have hrows : (Insert.ofRows table none first (first :: rest)).rows = first :: rest := by
      apply Insert.rows_ofRows
      intro r hr
      rw [hcols r hr, hcols first (by simp)]
    change (Outcome.returned _,
      d.addAll keyColumns (Insert.ofRows table none first (first :: rest)).rows) = _
    rw [hrows]

/-- Since `start`, rows of `target` reached the table, the first `o` of them among these. -/
def Reached (keyColumns : List String) (target : List Row) (start : KeyedData) (o : Nat)
    (d : KeyedData) : Prop :=
  ∃ added, added ⊆ target ∧ target.take o ⊆ added ∧ d = start.addAll keyColumns added

private theorem reached_add {keyColumns : List String} {target batch : List Row}
    {start d : KeyedData} {o o' : Nat} (h : Reached keyColumns target start o d)
    (hbatch : batch ⊆ target) (hnext : target.take o' ⊆ target.take o ++ batch) :
    Reached keyColumns target start o' (d.addAll keyColumns batch) := by
  obtain ⟨added, hadded, htake, hd⟩ := h
  refine ⟨added ++ batch, List.append_subset.mpr ⟨hadded, hbatch⟩, ?_, ?_⟩
  · intro r hr
    rcases List.mem_append.mp (hnext hr) with hold | hnew
    · exact List.mem_append_left batch (htake hold)
    · exact List.mem_append_right added hnew
  · rw [hd, KeyedData.addAll_append]

/-- The copy steps of a destination with this insert: what is offered stays in step. -/
theorem reached_copySteps {site : Site KeyedData X} {keyColumns : List String} {target : List Row}
    {cols : List String} (table : String) (hcols : ∀ r ∈ target, r.keys = cols)
    (hinsert : site.destination.insertBatch = (uniqueDestination keyColumns).insertBatch)
    (hnotes : site.notes = {}) (start : KeyedData) :
    CopySteps site table target (Reached keyColumns target start)
      (Reached keyColumns target start) := by
  have hwindow : ∀ o, window target o site.settings.batchSize ⊆ target := by
    intro o r hr
    exact List.mem_of_mem_drop (List.mem_of_mem_take hr)
  refine ⟨?_, ?_, fun _ _ h => h⟩
  · intro o d _ hg
    have hrun := uniqueDestination_insert keyColumns table (fun r hr => hcols r (hwindow o hr)) d
    rw [hinsert, hnotes]
    apply Call.wp_of_eq_returned hrun
    have hnext := take_append_window target o site.settings.batchSize
    exact reached_add hg (hwindow o) (fun r hr => by rw [hnext]; exact hr)
  · intro o d k _ _ hg
    have hpart : (window target o site.settings.batchSize).take k ⊆ target :=
      fun r hr => hwindow o (List.mem_of_mem_take hr)
    have hrun := uniqueDestination_insert keyColumns table (fun r hr => hcols r (hpart hr)) d
    rw [hinsert, hnotes]
    change Reached keyColumns target start o ((uniqueDestination keyColumns).insertBatch table
      ((window target o site.settings.batchSize).take k) none d).2
    rw [hrun]
    exact reached_add hg hpart (List.subset_append_left _ _)

theorem reached_start (keyColumns : List String) (target : List Row) (start : KeyedData) :
    Reached keyColumns target start 0 start := ⟨[], by simp, by simp, rfl⟩

section attempts

variable (c : KeyedRestart X) (tp : MigrationTablePlan) {fuel : Nat} {target : List Row}
  {cols : List String}

private theorem dwp_reached (hbatch : 0 < c.settings.batchSize)
    (hdata : c.settings.includeData = true) (htruncate : c.settings.truncateDestination = false)
    (hcols : ∀ r ∈ target, r.keys = cols)
    (htarget : MigrationExecutor.transform tp.columnMappings c.rows = .ok target)
    (hfuel : copyFuel c.rows.length c.settings ≤ fuel) (start : KeyedData) (n : Nat) :
    dwp (c.site.executor.migrateTable fuel tp)
      ⟨fun ok d' m => match ok with
        | true => Reached c.keyColumns target start target.length d' ∧ m = n + target.length
        | false => ∃ o ≤ target.length, Reached c.keyColumns target start o d' ∧ m = n + o,
        fun d' m => ∃ o ≤ target.length, Reached c.keyColumns target start o d' ∧ m = n + o, False⟩
      start n := by
  have hsteps : CopySteps c.site tp.tableName target _ _ :=
    reached_copySteps tp.tableName hcols rfl rfl start
  have hstart := reached_start c.keyColumns target start
  exact dwp_copyTable c.site tp (staticSource_serves _ _) htarget hbatch hsteps hdata htruncate
    rfl hfuel n hstart

/-- Where only the schema is migrated, the data stays. -/
private theorem dwp_schemaOnly (hdata : c.settings.includeData = false)
    (htruncate : c.settings.truncateDestination = false) (start : KeyedData) (n : Nat) :
    dwp (c.site.executor.migrateTable fuel tp)
      ⟨fun _ d' _ => d' = start, fun d' _ => d' = start, False⟩ start n := by
  refine dwp_migrateTable c.site fuel tp (· = start) (· = start) (· = start) (fun _ => rfl)
    (fun _ => rfl) (fun _ => ⟨fun _ => rfl, rfl⟩) (fun _ h _ => h) (fun _ h => ⟨h, fun _ => h⟩)
    (fun _ h _ => h) ?_ (fun _ h _ => h) (fun _ h _ => h) ?_
  · intro d' _ ht
    exact absurd (htruncate.symm.trans ht) (by decide)
  · intro d' _ hi
    exact absurd (hdata.symm.trans hi) (by decide)

/-- One attempt ends, and all it does to the table is to offer it rows of `target`: every one of
them when it succeeds. -/
private theorem attempt_adds (hbatch : 0 < c.settings.batchSize)
    (htruncate : c.settings.truncateDestination = false) (hcols : ∀ r ∈ target, r.keys = cols)
    (htarget : MigrationExecutor.transform tp.columnMappings c.rows = .ok target)
    (hfuel : copyFuel c.rows.length c.settings ≤ fuel) (w : World KeyedData X) :
    (c.attempt fuel tp w).1 ≠ .exhausted ∧
      ∃ added, added ⊆ target ∧
        (c.attempt fuel tp w).2.data = w.data.addAll c.keyColumns added ∧
        (c.settings.includeData = true → (c.attempt fuel tp w).1 = .returned true →
          target ⊆ added) := by
  have hweak : ∀ {o d}, Reached c.keyColumns target w.data o d →
      ∃ added, added ⊆ target ∧ d = w.data.addAll c.keyColumns added :=
    fun ⟨added, hadded, _, hd⟩ => ⟨added, hadded, hd⟩
  rw [KeyedRestart.attempt]
  cases hdata : c.settings.includeData with
  | false =>
    have hschema : dwp (c.site.executor.migrateTable fuel tp) _ _ _ :=
      dwp_schemaOnly c tp hdata htruncate w.data 0
    have hwp := hschema w.env
    cases hrun : c.site.executor.migrateTable fuel tp ⟨w, 0⟩ with
    | mk outcome s' =>
      cases outcome with
      | exhausted => exact (Call.wp_of_exhausted hwp hrun).elim
      | raised exc => exact ⟨by simp, [], by simp, Call.wp_of_raised hwp hrun, by simp⟩
      | returned ok => exact ⟨by simp, [], by simp, Call.wp_of_returned hwp hrun, by simp⟩
  | true =>
    have hwp := dwp_reached c tp hbatch hdata htruncate hcols htarget hfuel w.data 0 w.env
    cases hrun : c.site.executor.migrateTable fuel tp ⟨w, 0⟩ with
    | mk outcome s' =>
      cases outcome with
      | exhausted => exact (Call.wp_of_exhausted hwp hrun).elim
      | raised exc =>
        obtain ⟨o, -, hreached, -⟩ := Call.wp_of_raised hwp hrun
        obtain ⟨added, hadded, hd⟩ := hweak hreached
        exact ⟨by simp, added, hadded, hd, by simp⟩
      | returned ok =>
        cases ok with
        | true =>
          obtain ⟨⟨added, hadded, htake, hd⟩, -⟩ := Call.wp_of_returned hwp hrun
          rw [List.take_length] at htake
          exact ⟨by simp, added, hadded, hd, fun _ _ => htake⟩
        | false =>
          obtain ⟨o, -, hreached, -⟩ := Call.wp_of_returned hwp hrun
          obtain ⟨added, hadded, hd⟩ := hweak hreached
          exact ⟨by simp, added, hadded, hd, by simp⟩

private theorem attempts_safe
    (hadds : ∀ w : World KeyedData X, ∃ added, added ⊆ target ∧
      (c.attempt fuel tp w).2.data = w.data.addAll c.keyColumns added)
    (e : X) (k : Nat) : (c.afterAttempts fuel tp k ⟨⟨[], []⟩, e⟩).data.Safe target := by
  induction k with
  | zero => exact KeyedData.safe_empty target
  | succ k ih =>
    obtain ⟨added, hadded, hd⟩ := hadds (c.afterAttempts fuel tp k ⟨⟨[], []⟩, e⟩)
    change (c.attempt fuel tp (c.afterAttempts fuel tp k ⟨⟨[], []⟩, e⟩)).2.data.Safe target
    rw [hd]
    exact KeyedData.addAll_keeps c.keyColumns (fun d row hrow h => h.addRow c.keyColumns hrow)
      hadded ih

/-- Once the table is complete, later attempts leave it as it is. -/
private theorem attempts_stable
    (hadds : ∀ w : World KeyedData X, ∃ added, added ⊆ target ∧
      (c.attempt fuel tp w).2.data = w.data.addAll c.keyColumns added)
    {w : World KeyedData X} (hfull : target ⊆ w.data.content) (j : Nat) :
    ∃ n, (c.afterAttempts fuel tp j w).data.timeline =
      w.data.timeline ++ List.replicate n w.data.content := by
  have hlast : ∀ {d : KeyedData} {n : Nat}, d.timeline =
      w.data.timeline ++ List.replicate n w.data.content → d.content = w.data.content := by
    intro d n h
    have hget := congrArg List.getLast? h
    cases n with
    | zero => simpa [KeyedData.timeline] using hget
    | succ n => simpa [KeyedData.timeline, List.replicate_succ', ← List.append_assoc] using hget
  induction j with
  | zero => exact ⟨0, by simp [KeyedRestart.afterAttempts]⟩
  | succ j ih =>
    obtain ⟨n, hn⟩ := ih
    obtain ⟨added, hadded, hd⟩ := hadds (c.afterAttempts fuel tp j w)
    have hcontent := hlast hn
    obtain ⟨m, hm⟩ := KeyedData.addAll_full c.keyColumns hadded
      (d := (c.afterAttempts fuel tp j w).data) (hcontent ▸ hfull)
    refine ⟨n + m, ?_⟩
    change (c.attempt fuel tp (c.afterAttempts fuel tp j w)).2.data.timeline = _
    rw [hd, hm, hn, hcontent, List.append_assoc, List.replicate_append_replicate]

/-- A table with a primary key, migrated any number of times: between any two rows that reach it
the destination is a duplicate-free part of the transformed source, it never shrinks, and from the
first successful attempt on it is that source and stays so. -/
theorem restart_keyed_safe (hbatch : 0 < c.settings.batchSize)
    (htruncate : c.settings.truncateDestination = false)
    (hincluded : ∃ m ∈ tp.columnMappings, m.included = true)
    (htarget : applyMappings c.rows tp.columnMappings = .ok target)
    (hkeys : (target.map (Row.key c.keyColumns)).Nodup)
    (hfuel : copyFuel c.rows.length c.settings ≤ fuel) (e : X) (k : Nat) :
    (c.attempt fuel tp (c.afterAttempts fuel tp k ⟨⟨[], []⟩, e⟩)).1 ≠ .exhausted ∧
    (∀ content ∈ (c.afterAttempts fuel tp k ⟨⟨[], []⟩, e⟩).data.timeline,
      content.Nodup ∧ content ⊆ target) ∧
    (c.afterAttempts fuel tp k ⟨⟨[], []⟩, e⟩).data.timeline.Pairwise (· <+: ·) ∧
    ∀ w', c.settings.includeData = true →
      c.attempt fuel tp (c.afterAttempts fuel tp k ⟨⟨[], []⟩, e⟩) = (.returned true, w') →
      w'.data.content.Perm target ∧
      ∀ j e', ∃ n, (c.afterAttempts fuel tp j ⟨w'.data, e'⟩).data.timeline =
        w'.data.timeline ++ List.replicate n w'.data.content := by
  have htransform : MigrationExecutor.transform tp.columnMappings c.rows = .ok target :=
    (MigrationExecutor.transform_of_included hincluded c.rows).trans htarget
  obtain ⟨cols, hcols⟩ := applyMappings_keys htarget
  have hattempt := attempt_adds c tp hbatch htruncate hcols htransform hfuel
  have hadds : ∀ w : World KeyedData X, ∃ added, added ⊆ target ∧
      (c.attempt fuel tp w).2.data = w.data.addAll c.keyColumns added := by
    intro w
    obtain ⟨-, added, hadded, hd, -⟩ := hattempt w
    exact ⟨added, hadded, hd⟩
  have hsafe := attempts_safe c tp hadds e k
  refine ⟨(hattempt _).1, hsafe.part, hsafe.grows, ?_⟩
  intro w' hdata hrun
  obtain ⟨-, added, hadded, hd, hall⟩ := hattempt (c.afterAttempts fuel tp k ⟨⟨[], []⟩, e⟩)
  rw [hrun] at hd hall
  have hafter : w'.data.Safe target := by
    rw [hd]
    exact KeyedData.addAll_keeps c.keyColumns (fun d row hrow h => h.addRow c.keyColumns hrow)
      hadded hsafe
  have hfull : target ⊆ w'.data.content := by
    have hmem := Keyed.subset_insertAll (Row.key c.keyColumns) hkeys hsafe.content.2 hadded
    rw [hd, KeyedData.addAll_content]
    exact fun r hr => hmem (hall hdata rfl hr)
  constructor
  · have hnodup : target.Nodup := hkeys.of_map _
    apply (List.perm_ext_iff_of_nodup hafter.content.1 hnodup).mpr
    exact fun r => ⟨fun hr => hafter.content.2 hr, fun hr => hfull hr⟩
  · exact fun j e' => attempts_stable c tp hadds (w := ⟨w'.data, e'⟩) hfull j

end attempts

/-- Three rows in batches of two, the key first. An insert raises after its first row whenever the
environment says so, and there are no retries, so that such an attempt fails. -/
def keyedCopy : KeyedRestart (List Bool) where
  rows := [1, 2, 3].map fun i => Dict.ofList [("id", .int i), ("note", .str "n")]
  settings := { batchSize := 2, maxRetries := 0 }
  insertFault := fun e => match e with
    | true :: later => (some (⟨.other, "lost connection"⟩, 1), later)
    | false :: later => (none, later)
    | [] => (none, [])
  keyColumns := ["id"]

def keyedTable : MigrationTablePlan where
  tableName := "users"
  sourceSchema := { name := "users", columns := [] }
  columnMappings := [
    { sourceCol := "id", destCol := "id", sourceType := "INTEGER", destType := "BIGINT",
      included := true }]

/-- The first attempt fails with one row in the table; the second one completes it. -/
theorem restart_keyed_safe_resumed :
    ∃ target w', applyMappings keyedCopy.rows keyedTable.columnMappings = .ok target ∧
      (keyedCopy.afterAttempts 9 keyedTable 1 ⟨⟨[], []⟩, [true]⟩).data.content =
        [Dict.ofList [("id", .int 1)]] ∧
      keyedCopy.attempt 9 keyedTable (keyedCopy.afterAttempts 9 keyedTable 1 ⟨⟨[], []⟩, [true]⟩) =
        (.returned true, w') ∧
      w'.data.content.Perm target := by
  have htarget : applyMappings keyedCopy.rows keyedTable.columnMappings =
      .ok ([1, 2, 3].map fun i => Dict.ofList [("id", .int i)]) := rfl
  have hreturned : (keyedCopy.attempt 9 keyedTable
      (keyedCopy.afterAttempts 9 keyedTable 1 ⟨⟨[], []⟩, [true]⟩)).1 = .returned true := by decide
  obtain ⟨-, -, -, hsuccess⟩ := restart_keyed_safe keyedCopy keyedTable (by decide) rfl
    ⟨_, List.mem_cons_self, rfl⟩ htarget (by decide) (by decide : copyFuel _ _ ≤ 9) [true] 1
  exact ⟨_, _, htarget, by decide, Prod.ext hreturned rfl,
    (hsuccess _ rfl (Prod.ext hreturned rfl)).1⟩

end DataBridge
