import DataBridge.Migration.Intermittent
import DataBridge.Migration.SqliteSite
import DataBridge.Providers.QuotedNames
import DataBridge.System.CompletedRun

namespace DataBridge

open Call (Simulates Silent Answers)
open Sqlite (foldCase)
open SQLiteProvider (Idle NewTo Stores Taken addRows foldl_taken insertRows_of_stores nameOf
  tableSchema tableDefinition store provider)
open MigrationExecutor (transform targetOf wanted wantedRows)

section intermittent

open Intermittent (Amid answers_unhindered silent_unhindered)

variable {D W : Type} {At : D → W → Prop} {faults : Nat → Option Exc}

/-- A connection is opened and closed as if no call for rows failed. -/
theorem ManagedProvider.Opens.intermittent {p : ManagedProvider W} (h : p.Opens At) :
    (p.intermittent faults).Opens (Amid faults At) where
  connect e := silent_unhindered (h.connect e.data)
  disconnect e := silent_unhindered (h.disconnect e.data)

theorem ReadsAt.intermittent {e : Faulted D} {c : Catalogues} {src dst : ManagedProvider W}
    {tables : List String}
    (h : ReadsAt At e.data c ⟨src.toBaseDatabaseProvider, dst.toBaseDatabaseProvider, tables⟩) :
    ReadsAt (Amid faults At) e c ⟨(src.intermittent faults).toBaseDatabaseProvider,
      (dst.intermittent faults).toBaseDatabaseProvider, tables⟩ where
  source t ht := answers_unhindered (h.source t ht)
  present t ht := answers_unhindered (h.present t ht)
  destination t ht hpresent := answers_unhindered (h.destination t ht hpresent)

end intermittent

/-- The two databases of a migration from SQLite to SQLite, and the rest of the world. -/
structure SqlitePair (E : Type) where
  source : SqliteSession
  destination : SqliteSession
  rest : E

/-- A provider of one database, used from both. -/
def ManagedProvider.over {W S : Type} (get : S → W) (put : W → S → S) (p : ManagedProvider W) :
    ManagedProvider S where
  toBaseDatabaseProvider := p.toBaseDatabaseProvider.within get put
  connect := Call.zoom get put p.connect
  disconnect := Call.zoom get put p.disconnect

/-- Nothing goes wrong on the two connections, and everything is committed. -/
structure SqlitePair.Holds {E : Type} (source d : SqliteTables) (w : SqlitePair E) : Prop where
  source : Idle source w.source
  destination : Idle d w.destination

namespace SqlitePair

variable {E : Type} (engine : SqliteEngine)

/-- A call on one of the databases. -/
def onSource {α : Type} : Call Exc SqliteSession α → Call Exc (SqlitePair E) α :=
  Call.zoom SqlitePair.source fun s w => { w with source := s }

def onDestination {α : Type} : Call Exc SqliteSession α → Call Exc (SqlitePair E) α :=
  Call.zoom SqlitePair.destination fun s w => { w with destination := s }

def sourceProvider : ManagedProvider (SqlitePair E) :=
  (provider engine).over SqlitePair.source fun s w => { w with source := s }

def destinationProvider : ManagedProvider (SqlitePair E) :=
  (provider engine).over SqlitePair.destination fun s w => { w with destination := s }

variable {engine} {source d : SqliteTables} {α : Type}

theorem simulates_destination {R : α → SqliteTables → Prop} {c : Call Exc SqliteSession α}
    (hc : Simulates Idle d R c) : Simulates (Holds source) d R
      (onDestination c : Call Exc (SqlitePair E) α) := by
  refine (Simulates.zoom id hc (fun _ h => h.destination) ?_).mono ?_
  · exact fun w s d' h hat => ⟨h.source, hat⟩
  · intro a e h
    obtain ⟨d', hr, rfl⟩ := h
    exact hr

theorem answers_destination {r : Except Exc α} {c : Call Exc SqliteSession α}
    (hc : Answers Idle d r c) : Answers (Holds source) d r
      (onDestination c : Call Exc (SqlitePair E) α) :=
  hc.zoom (fun _ h => h.destination) (fun _ _ h hat => ⟨h.source, hat⟩)

/-- A call on the source that leaves its tables as they are. -/
theorem simulates_source {P : α → Prop} {c : Call Exc SqliteSession α}
    (hc : Simulates Idle source (fun a e => P a ∧ e = source) c) :
    Simulates (Holds source) d (fun a d' => P a ∧ d' = d)
      (onSource c : Call Exc (SqlitePair E) α) := by
  intro w hw
  rw [onSource, Call.wp_zoom]
  refine Call.wp_mono (hc w.source hw.source) ?_ (fun _ _ h => h) (fun _ h => h)
  intro a s h
  obtain ⟨e, ⟨ha, rfl⟩, hs⟩ := h
  exact ⟨d, ⟨ha, rfl⟩, hs, hw.destination⟩

theorem answers_source {r : Except Exc α} {c : Call Exc SqliteSession α}
    (hc : Answers Idle source r c) : Answers (Holds source) d r
      (onSource c : Call Exc (SqlitePair E) α) :=
  hc.zoom (fun _ h => h.source) (fun _ _ h hat => ⟨hat, h.destination⟩)

theorem silent_source {c : Call Exc SqliteSession α} (hc : Silent Idle source c) :
    Silent (Holds source) d
      (onSource c : Call Exc (SqlitePair E) α) :=
  (simulates_source (P := fun _ => True) (hc.mono fun _ _ h => ⟨trivial, h⟩)).mono
    fun _ _ h => h.2

theorem opens_source :
    (sourceProvider (E := E) engine).Opens (Holds source) where
  connect _ := silent_source SQLiteProvider.silent_connect
  disconnect _ := silent_source SQLiteProvider.silent_disconnect

theorem opens_destination :
    (destinationProvider (E := E) engine).Opens (Holds source) where
  connect _ := simulates_destination SQLiteProvider.silent_connect
  disconnect _ := simulates_destination SQLiteProvider.silent_disconnect

/-- The rows of a table of the source. -/
def held (source : SqliteTables) (t : String) : Option (List Row) := (source.get? t).map (·.rows)

theorem faultless : Faultless (store engine) (Holds source) (held source)
    (sourceProvider (E := E) engine).toBaseDatabaseProvider
    (destinationProvider engine).toBaseDatabaseProvider where
  fetch d t rows offset limit cols hrows := by
    obtain ⟨table, htable, rfl⟩ := Option.map_eq_some_iff.mp hrows
    exact simulates_source (SQLiteProvider.simulates_fetchBatch htable offset limit cols)
  create d schema := simulates_destination (SQLiteProvider.simulates_createTable schema)
  clear d t hpresent := simulates_destination (SQLiteProvider.simulates_truncateTable hpresent)
  insert d t batch hne haccepts :=
    simulates_destination (SQLiteProvider.simulates_insertBatch hne haccepts)

/-- What the catalogues say of tables that are in the source and not in the destination. -/
def schemaOf (tableInfo : String → TableInfo) (source : SqliteTables) (t : String) :
    Except Exc TableSchema :=
  match source.get? t with
  | some table => .ok (tableSchema t (tableInfo table.definition).rows table.rows.length)
  | none => .error (SQLiteProvider.noSuchTable t)

def catalogues (tableInfo : String → TableInfo) (source d : SqliteTables) : Catalogues where
  sourceSchema := schemaOf tableInfo source
  present t := t ∈ d.keys
  destinationSchema := schemaOf tableInfo d

theorem readsAt {tables : List String} (hin : ∀ t ∈ tables, t ∈ source.keys) :
    ReadsAt (Holds source) d (catalogues engine.tableInfo source d)
      ⟨(sourceProvider (E := E) engine).toBaseDatabaseProvider,
        (destinationProvider engine).toBaseDatabaseProvider, tables⟩ where
  source t ht := by
    obtain ⟨table, htable⟩ := (Dict.mem_keys_iff_exists _ _).mp (hin t ht)
    have hschema : schemaOf engine.tableInfo source t =
        .ok (tableSchema t (engine.tableInfo table.definition).rows table.rows.length) := by
      rw [schemaOf, htable]
    change Answers _ _ (schemaOf engine.tableInfo source t) _
    rw [hschema]
    exact answers_source (SQLiteProvider.answers_getTableSchema htable)
  present t _ := answers_destination (SQLiteProvider.answers_tableExists t)
  destination t _ hpresent := by
    obtain ⟨table, htable⟩ := (Dict.mem_keys_iff_exists d t).mp
      (by simpa [catalogues] using hpresent)
    have hschema : schemaOf engine.tableInfo d t =
        .ok (tableSchema t (engine.tableInfo table.definition).rows table.rows.length) := by
      rw [schemaOf, htable]
    change Answers _ _ (schemaOf engine.tableInfo d t) _
    rw [hschema]
    exact answers_destination (SQLiteProvider.answers_getTableSchema htable)

/-! ## Every table of the job into a table that is made for it -/

/-- The schema that the planner reads of a table of the source. -/
def readSchema (tableInfo : String → TableInfo) (t : String) (table : SqliteTable) : TableSchema :=
  tableSchema t (tableInfo table.definition).rows table.rows.length

/-- The rows of the table with their values coerced. -/
def coercedRows (tableInfo : String → TableInfo) (t : String) (table : SqliteTable) : List Row :=
  match applyMappings table.rows (buildColumnMappings (readSchema tableInfo t table) none) with
  | .ok coerced => coerced
  | .error _ => []

/-- The statements on the table say what they are made for: no name ends its quotes in them, the types
are words, and SQLite does not keep the name of the table for itself. -/
structure Writable (schema : TableSchema) : Prop where
  names : (Built.createTable schema).CleanNames .sqlite
  types : (Built.createTable schema).PlainTypes
  pragma : '\'' ∉ schema.name.toList
  allowed : ¬ foldCase "sqlite_" <+: foldCase schema.name

/-- The table can be copied, and `copy` is what a new table holds then: its rows with the values
coerced, as the new table stores them, and none of them is refused or ignored. -/
structure CopiesTo (engine : SqliteEngine) (t : String) (table copy : SqliteTable) : Prop where
  writable : Writable (readSchema engine.tableInfo t table)
  columns : (readSchema engine.tableInfo t table).columns ≠ []
  definition : copy.definition = tableDefinition (readSchema engine.tableInfo t table)
  rows : applyMappings table.rows (buildColumnMappings (readSchema engine.tableInfo t table) none) =
    .ok (coercedRows engine.tableInfo t table)
  stored : List.Forall₂ (Stores engine t copy.definition) (coercedRows engine.tableInfo t table)
    copy.rows
  taken : Taken engine.ignores copy.definition [] copy.rows

/-- The entry of the plan for such a table. -/
def entryOf (tableInfo : String → TableInfo) (t : String) (table : SqliteTable) :
    MigrationTablePlan where
  tableName := t
  sourceSchema := readSchema tableInfo t table
  destinationSchema := none
  columnMappings := buildColumnMappings (readSchema tableInfo t table) none
  rowCount := table.rows.length
  status := .pending

variable {t : String} {table copy : SqliteTable}

theorem planned_entryOf (hsource : source.get? t = some table) (habsent : t ∉ d.keys)
    (hcopy : CopiesTo engine t table copy) :
    MigrationPlanner.planned (catalogues engine.tableInfo source d) t =
      [entryOf engine.tableInfo t table] := by
  have hschema : (catalogues engine.tableInfo source d).sourceSchema t =
      .ok (readSchema engine.tableInfo t table) := by
    change schemaOf engine.tableInfo source t = _
    rw [schemaOf, hsource]
    rfl
  have hpresent : (catalogues engine.tableInfo source d).present t = false := by
    simp [catalogues, habsent]
  have hvalid : validateSchemaCompatibility (readSchema engine.tableInfo t table) none = .ok [] := by
    rw [validateSchemaCompatibility, if_neg hcopy.columns]
  rw [MigrationPlanner.planned, MigrationPlanner.planStep, hschema]
  dsimp only
  rw [hpresent, if_neg Bool.false_ne_true, MigrationPlanner.planTable, hvalid]
  rfl

variable {W : Type} {x : MigrationExecutor W}

theorem created_entryOf (hschema : x.includeSchema = true) (hnew : NewTo d t) :
    x.created (store engine) d (entryOf engine.tableInfo t table) =
      d.set t ⟨tableDefinition (readSchema engine.tableInfo t table), []⟩ := by
  have hcreate : (store engine).create d (entryOf engine.tableInfo t table).sourceSchema =
      if nameOf d t ∈ d.keys then d
      else d.set (nameOf d t) ⟨tableDefinition (readSchema engine.tableInfo t table), []⟩ := rfl
  rw [MigrationExecutor.created, if_pos hschema, hcreate, hnew.nameOf, if_neg hnew.absent]

/-- A new table is cleared to itself. -/
theorem ready_entryOf (hschema : x.includeSchema = true) (hnew : NewTo d t) :
    x.ready (store engine) d (entryOf engine.tableInfo t table) =
      d.set t ⟨tableDefinition (readSchema engine.tableInfo t table), []⟩ := by
  rw [MigrationExecutor.ready, created_entryOf hschema hnew]
  split
  · simp [store, entryOf, Dict.set_set]
  · rfl

theorem targetOf_entryOf (hsource : source.get? t = some table)
    (hcopy : CopiesTo engine t table copy) :
    transform (entryOf engine.tableInfo t table).columnMappings table.rows =
        .ok (coercedRows engine.tableInfo t table) ∧
      targetOf (held source) (entryOf engine.tableInfo t table) =
        coercedRows engine.tableInfo t table := by
  have hincluded : ∃ m ∈ buildColumnMappings (readSchema engine.tableInfo t table) none,
      m.included = true := by
    obtain ⟨col, hcol⟩ := List.exists_mem_of_ne_nil _ hcopy.columns
    exact ⟨_, List.mem_map_of_mem hcol, rfl⟩
  have htransform : transform (entryOf engine.tableInfo t table).columnMappings table.rows =
      .ok (coercedRows engine.tableInfo t table) := by
    rw [← hcopy.rows]
    exact MigrationExecutor.transform_of_included hincluded table.rows
  have hheld : held source (entryOf engine.tableInfo t table).tableName = some table.rows := by
    simp [held, entryOf, hsource]
  exact ⟨htransform, by rw [targetOf, hheld, Option.getD_some, htransform]⟩

theorem copied_entryOf (hschema : x.includeSchema = true) (hdata : x.includeData = true)
    (hsource : source.get? t = some table) (hnew : NewTo d t)
    (hcopy : CopiesTo engine t table copy) :
    x.copied (store engine) (held source) d (entryOf engine.tableInfo t table) = d.set t copy := by
  have hmade : (d.set t ⟨copy.definition, []⟩).get? t = some ⟨copy.definition, []⟩ := by simp
  have hrows : addRows engine.ignores ⟨copy.definition, []⟩ copy.rows = copy := by
    rw [addRows, foldl_taken hcopy.taken, List.nil_append]
  rw [MigrationExecutor.copied, if_pos hdata, ready_entryOf hschema hnew,
    (targetOf_entryOf hsource hcopy).2, ← hcopy.definition]
  change SQLiteProvider.insertRows engine _ t _ = _
  rw [insertRows_of_stores engine hmade hcopy.stored, hrows, Dict.set_set]

theorem canCopy_entryOf (hschema : x.includeSchema = true) (hsource : source.get? t = some table)
    (hnew : NewTo d t) (hcopy : CopiesTo engine t table copy) :
    x.CanCopy (store engine) (held source) d (entryOf engine.tableInfo t table) where
  clear _ := by
    rw [created_entryOf hschema hnew]
    simp [store, entryOf, Dict.mem_keys_set]
  copy _ := by
    obtain ⟨htransform, htarget⟩ := targetOf_entryOf hsource hcopy
    refine ⟨table.rows, by simp [held, entryOf, hsource], by rw [htarget]; exact htransform, ?_⟩
    rw [htarget, ready_entryOf hschema hnew, ← hcopy.definition]
    exact ⟨⟨copy.definition, []⟩, by simp [entryOf], applyMappings_keys hcopy.rows, copy.rows,
      hcopy.stored⟩

/-- Each of the tables is in the source, is new to the destination, and can be copied. -/
def Transfers (engine : SqliteEngine) (source d : SqliteTables) (copies : String → SqliteTable)
    (ts : List String) : Prop :=
  ∀ t ∈ ts, NewTo d t ∧ ∃ table, source.get? t = some table ∧ CopiesTo engine t table (copies t)

variable {copies : String → SqliteTable} {ts : List String}

/-- The table that stands in the source under the name. -/
def tableOf (source : SqliteTables) (t : String) : SqliteTable :=
  (source.get? t).getD ⟨"", []⟩

theorem planned_tables (h : Transfers engine source d copies ts) :
    (ts.foldl (MigrationPlanner.planStep (catalogues engine.tableInfo source d)) .empty).tables =
      ts.map fun t => entryOf engine.tableInfo t (tableOf source t) := by
  rw [MigrationPlanner.foldl_planStep_tables, ← List.flatMap_singleton' (ts.map _),
    List.flatMap_map]
  apply List.flatMap_congr
  intro t ht
  obtain ⟨hnew, table, hsource, hcopy⟩ := h t ht
  have htable : tableOf source t = table := by rw [tableOf, hsource, Option.getD_some]
  rw [htable]
  exact planned_entryOf hsource hnew.absent hcopy

/-- The tables are new one after the other. -/
theorem Transfers.tail (h : Transfers engine source d copies (t :: ts))
    (hnodup : ((t :: ts).map foldCase).Nodup) (copy : SqliteTable) :
    Transfers engine source (d.set t copy) copies ts := by
  intro u hu
  obtain ⟨hnew, hcopied⟩ := h u (List.mem_cons_of_mem _ hu)
  refine ⟨?_, hcopied⟩
  intro k hk hsame
  rcases (Dict.mem_keys_set _ _ _ _).mp hk with heq | hold
  · rw [heq] at hsame
    exact (List.nodup_cons.mp hnodup).1 (hsame ▸ List.mem_map_of_mem hu)
  · exact hnew k hold hsame

theorem feasible_entries (hschema : x.includeSchema = true) (hdata : x.includeData = true)
    (hnodup : (ts.map foldCase).Nodup) (h : Transfers engine source d copies ts) :
    x.Feasible (store engine) (held source)
      (ts.map fun t => entryOf engine.tableInfo t (tableOf source t)) d := by
  induction ts generalizing d with
  | nil => trivial
  | cons t ts ih =>
    obtain ⟨hnew, table, hsource, hcopy⟩ := h t List.mem_cons_self
    have htable : tableOf source t = table := by rw [tableOf, hsource, Option.getD_some]
    have hpending : (entryOf engine.tableInfo t table).status ≠ .skipped := by simp [entryOf]
    rw [List.map_cons, htable, MigrationExecutor.Feasible, if_neg hpending,
      copied_entryOf hschema hdata hsource hnew hcopy]
    exact ⟨canCopy_entryOf hschema hsource hnew hcopy,
      ih (List.nodup_cons.mp hnodup).2 (h.tail hnodup _)⟩

theorem carriedOut_entries (hschema : x.includeSchema = true) (hdata : x.includeData = true)
    (hnodup : (ts.map foldCase).Nodup) (h : Transfers engine source d copies ts) :
    x.carriedOut (store engine) (held source)
      (ts.map fun t => entryOf engine.tableInfo t (tableOf source t)) d =
        ts.foldl (fun d t => d.set t (copies t)) d := by
  induction ts generalizing d with
  | nil => rfl
  | cons t ts ih =>
    obtain ⟨hnew, table, hsource, hcopy⟩ := h t List.mem_cons_self
    have htable : tableOf source t = table := by rw [tableOf, hsource, Option.getD_some]
    have hpending : (entryOf engine.tableInfo t table).status ≠ .skipped := by simp [entryOf]
    have hrest := ih (List.nodup_cons.mp hnodup).2 (h.tail hnodup (copies t))
    rw [MigrationExecutor.carriedOut] at hrest ⊢
    rw [List.map_cons, List.foldl_cons, List.foldl_cons, htable, if_neg hpending,
      copied_entryOf hschema hdata hsource hnew hcopy, hrest]

/-- A run that skips no entry counts all rows of its tables. -/
theorem fullResult_pending (hdata : x.includeData = true) {entry : String → MigrationTablePlan}
    (hname : ∀ t, (entry t).tableName = t) (hstatus : ∀ t, (entry t).status = .pending)
    (hin : ∀ t ∈ ts, t ∈ source.keys) :
    x.fullResult (held source) (ts.map entry) =
      { completedTables := ts
        totalRowsMigrated := (ts.map fun t => (tableOf source t).rows.length).sum } := by
  have hwanted : wanted (ts.map entry) = ts.map entry := by
    rw [wanted, List.filter_eq_self]
    intro tp htp
    obtain ⟨t, -, rfl⟩ := List.mem_map.mp htp
    simp [hstatus t]
  have hskipped : ((ts.map entry).filter fun tp => tp.status = .skipped) = [] := by
    rw [List.filter_eq_nil_iff]
    intro tp htp
    obtain ⟨t, -, rfl⟩ := List.mem_map.mp htp
    simp [hstatus t]
  have hrows : ∀ t ∈ ts, ((held source (entry t).tableName).getD []).length =
      (tableOf source t).rows.length := by
    intro t ht
    obtain ⟨table, hsource⟩ := (Dict.mem_keys_iff_exists source t).mp (hin t ht)
    simp [hname t, held, tableOf, hsource]
  have hnames : ts.map (fun t => (entry t).tableName) = ts := by
    simp only [hname, List.map_id']
  rw [MigrationExecutor.fullResult, if_pos hdata, wantedRows, hwanted, hskipped]
  simp only [List.map_map, Function.comp_def, List.map_nil]
  rw [hnames, List.map_congr_left hrows]

theorem get?_foldl_copies (t : String) :
    (ts.foldl (fun d t => d.set t (copies t)) d).get? t =
      if t ∈ ts then some (copies t) else d.get? t := by
  induction ts generalizing d with
  | nil => simp
  | cons u ts ih =>
    rw [List.foldl_cons, ih, Dict.get?_set]
    by_cases ht : t ∈ ts
    · simp [ht]
    · by_cases hu : t = u
      · simp [hu]
      · simp [ht, hu]

end SqlitePair

private def readingsInfo : TableInfo where
  rows := [⟨"degrees", "INT", false, none, 0⟩, ⟨"valid", "Boolean", false, none, 0⟩,
    ⟨"note", "", false, none, 0⟩]
  nodup := by decide

private def readingsTable : SqliteTable where
  definition := "\"degrees\" INT, \"valid\" Boolean, \"note\""
  rows := [Dict.ofList [("degrees", .float (.finite (3 / 2))), ("valid", .str "yes"),
      ("note", .int 5)],
    Dict.ofList [("degrees", .none), ("valid", .int 0), ("note", .none)]]

/-- The column without a type becomes one of type TEXT. -/
private def readingsCopy : SqliteTable where
  definition := tableDefinition (SqlitePair.readSchema (fun _ => readingsInfo) "readings"
    readingsTable)
  rows := [Dict.ofList [("degrees", .int 1), ("valid", .int 1), ("note", .str "5")],
    Dict.ofList [("degrees", .none), ("valid", .int 0), ("note", .none)]]

/-- A library that computes with rationals. -/
private def readingsEngine : SqliteEngine where
  tableInfo definition := if definition = readingsCopy.definition then
      ⟨[⟨"degrees", "INTEGER", false, none, 0⟩, ⟨"valid", "BOOLEAN", false, none, 0⟩,
        ⟨"note", "TEXT", false, none, 0⟩], by decide⟩
    else readingsInfo
  ignores _ _ _ := false
  reals := { nearest := .finite, text := fun _ => "" }
  newRowid old := old.length + 1

private def readingsSource : SqliteTables := Dict.ofList [("readings", readingsTable)]

private def notesDestination : SqliteTables := Dict.ofList [("notes", ⟨"\"id\" INTEGER", []⟩)]

/-- Every second call for rows fails. -/
private def busyEverySecond (n : Nat) : Option Exc :=
  if n % 2 = 0 then some ⟨.other, "database is locked"⟩ else none

private theorem busyEverySecond_recovers : Intermittent.Recovers busyEverySecond 1 := by
  intro n
  by_cases hn : n % 2 = 0
  · have hodd : (n + 1) % 2 ≠ 0 := by omega
    exact ⟨1, by omega, if_neg hodd⟩
  · exact ⟨0, by omega, if_neg hn⟩

private def readingsJob : Job Bool where
  tables := ["readings"]
  migSettings := { batchSize := 1, truncateDestination := true, maxRetries := 1 }
  srcCreds := true
  dstCreds := false

/-- The rest of the world is a clock. -/
private def readingsTask : TaskContext Bool (Intermittent (SqlitePair Nat)) where
  loadsTables _ := .ok readingsJob.tables
  loadsSettings _ := .ok readingsJob.migSettings
  decryptCredentials connection := .ok (connection = "old.db")
  databaseType _ := some "sqlite"
  getProvider _ old := .ok (if old
    then (SqlitePair.sourceProvider readingsEngine).intermittent busyEverySecond
    else (SqlitePair.destinationProvider readingsEngine).intermittent busyEverySecond)
  now := do
    Call.modify fun s => ⟨⟨s.world.source, s.world.destination, s.world.rest + 1⟩, s.calls⟩
    Call.read fun s => s.world.rest
  elapsed := pure 1
  newUuid := pure "id"

private def readingsRecord : Migration where
  sourceConnection := "old.db"
  destinationConnection := "new.db"

private def readingsState : TaskState (Intermittent (SqlitePair Nat)) where
  app := { migrations := Dict.ofList [("m", readingsRecord)] }
  world :=
    { world :=
        { source := ⟨{ committed := readingsSource }, []⟩
          destination := ⟨{ committed := notesDestination }, []⟩
          rest := 40 }
      calls := 0 }

private theorem readings_undisturbed : readingsTask.Undisturbed
    (Intermittent.Amid busyEverySecond (SqlitePair.Holds readingsSource)) where
  appDb _ := Call.simulates_pure rfl
  sockets _ := Call.simulates_pure rfl
  now e _ h := ⟨e, rfl, ⟨h.world.source, h.world.destination⟩, h.left⟩
  elapsed _ := Call.simulates_pure rfl
  newUuid _ := Call.simulates_pure rfl
  sleep _ _ := Call.simulates_pure rfl

private theorem readings_stored : List.Forall₂
    (Stores readingsEngine "readings" readingsCopy.definition)
    (SqlitePair.coercedRows readingsEngine.tableInfo "readings" readingsTable)
    readingsCopy.rows := by
  have hcoerced : SqlitePair.coercedRows readingsEngine.tableInfo "readings" readingsTable =
      [Dict.ofList [("degrees", .int 1), ("valid", .bool true), ("note", .int 5)],
        Dict.ofList [("degrees", .none), ("valid", .bool false), ("note", .none)]] := by
    decide +kernel
  rw [hcoerced]
  exact .cons (fun _ => rfl) (.cons (fun _ => rfl) .nil)

private theorem readings_writable :
    SqlitePair.Writable (SqlitePair.readSchema readingsEngine.tableInfo "readings" readingsTable) where
  names := ⟨by decide +kernel, by decide +kernel⟩
  types := by
    change ∀ col ∈ (SqlitePair.readSchema readingsEngine.tableInfo "readings" readingsTable).columns,
      plainText col.dataType = true
    decide +kernel
  pragma := by decide
  allowed := by decide

private theorem readings_transfers : SqlitePair.Transfers readingsEngine readingsSource
    notesDestination (fun _ => readingsCopy) ["readings"] := by
  intro t ht
  rw [List.mem_singleton.mp ht]
  refine ⟨by decide, readingsTable, rfl, ?_⟩
  exact { writable := readings_writable, columns := by decide, definition := by decide +kernel,
          rows := by decide +kernel, stored := readings_stored, taken := ⟨rfl, rfl, trivial⟩ }

end DataBridge
