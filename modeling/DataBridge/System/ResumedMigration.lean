import DataBridge.Migration.SqlitePartway
import DataBridge.System.JobRun
import DataBridge.System.SqliteMigration
import Mathlib.Logic.Relation

namespace DataBridge

open Call (Keeps Yields Simulates)
open SQLiteProvider (Stores nameOf tableSchema tableDefinition createStatement store)
open MigrationExecutor (transform selectedColumns targetOf)

section intermittent

open Intermittent (unhindered numbered)

variable {W α : Type} {I : W → Prop} {P : α → Prop} {call : Call Exc W α}
  {faults : Nat → Option Exc}

theorem yields_unhindered (hcall : Yields I P call) :
    Yields (fun s : Intermittent W => I s.world) P (unhindered call) :=
  hcall.zoom (fun _ h => h) (fun _ _ _ h => h)

theorem keeps_unhindered (hcall : Keeps I call) :
    Keeps (fun s : Intermittent W => I s.world) (unhindered call) :=
  hcall.zoom (fun _ h => h) (fun _ _ _ h => h)

/-- A call for rows keeps `I` when it is made, and when it fails before it is. -/
theorem yields_numbered (hcall : Yields I P call) :
    Yields (fun s : Intermittent W => I s.world) P (numbered faults call) := by
  intro s hs
  have hmade := yields_unhindered hcall { s with calls := s.calls + 1 } hs
  rw [Call.wp, numbered]
  cases faults s.calls with
  | some exc => exact hs
  | none => exact hmade

theorem JobCalls.Serves.intermittent {c : JobCalls} {src dst : BaseDatabaseProvider W}
    (h : c.Serves I src dst) : c.Serves (fun s : Intermittent W => I s.world)
      (src.intermittent faults) (dst.intermittent faults) where
  readSource t ht := yields_unhindered (h.readSource t ht)
  tableExists t ht := keeps_unhindered (h.tableExists t ht)
  readDestination t ht := yields_unhindered (h.readDestination t ht)
  fetchBatch t ht offset limit cols := yields_numbered (h.fetchBatch t ht offset limit cols)
  createTable t ht schema hs := keeps_unhindered (h.createTable t ht schema hs)
  truncateTable t ht := keeps_unhindered (h.truncateTable t ht)
  insertBatch t ht rows hr := (yields_numbered (h.insertBatch t ht rows hr).yields).keeps

end intermittent

namespace SqlitePair

variable {E : Type} (engine : SqliteEngine)

/-- The table can be copied again and again: `copy` has its rows with the values coerced, as the new
table stores them, SQLite reports the new table as it was written, and only its key makes it ignore a
row of the copy. -/
structure Resumable (t : String) (table copy : SqliteTable) : Prop where
  writable : Writable (readSchema engine.tableInfo t table)
  columns : (readSchema engine.tableInfo t table).columns ≠ []
  definition : copy.definition = tableDefinition (readSchema engine.tableInfo t table)
  rows : applyMappings table.rows (buildColumnMappings (readSchema engine.tableInfo t table) none) =
    .ok (coercedRows engine.tableInfo t table)
  stored : List.Forall₂ (Stores engine t copy.definition) (coercedRows engine.tableInfo t table)
    copy.rows
  ascii : ∀ row ∈ (engine.tableInfo table.definition).rows, PyText.isAscii row.type
  reported : (createStatement (readSchema engine.tableInfo t table)).ReportedBy engine.tableInfo
  keyed : ∃ keyColumns, copy.KeyedBy engine.ignores keyColumns

/-- Each of the tables is in the source and can be copied so. -/
def AllResumable (source : SqliteTables) (copies : String → SqliteTable) (ts : List String) : Prop :=
  ∀ t ∈ ts, ∃ table, source.get? t = some table ∧ Resumable engine t table (copies t)

/-- What the calls of a job for `ts` carry. -/
def jobCalls (source : SqliteTables) (ts : List String) : JobCalls where
  names := ts
  source t s := s = readSchema engine.tableInfo t (tableOf source t)
  destination t s := s.columns =
    (readSchema engine.tableInfo t (tableOf source t)).columns.map ColumnSchema.withoutDefault
  fetched t cols batch := ∃ offset limit,
    batch = selectRows (tableOf source t).rows ⟨cols, t, limit, offset⟩
  inserted t rows := rows ⊆ coercedRows engine.tableInfo t (tableOf source t) ∧
    ∃ cols, ∀ row ∈ rows, row.keys = cols

/-- The source is as it was, and the destination, committed or not, has a part of each copy. -/
structure Unfinished (source : SqliteTables) (copies : String → SqliteTable) (ts : List String)
    (start : SqliteTables) (w : SqlitePair E) : Prop where
  source : w.source.conn = { committed := source }
  destination : w.destination.conn.Always (Partway copies ts start)

variable {engine} {source start d : SqliteTables} {copies : String → SqliteTable}
  {ts : List String} {t : String} {table copy : SqliteTable}

/-- A table that was created for the copy is read as the source is, but for the defaults. -/
theorem Resumable.readSchema_part (h : Resumable engine t table copy)
    {found : SqliteTable} (hfound : copy.PartOf found) :
    (readSchema engine.tableInfo t found).columns =
      (readSchema engine.tableInfo t table).columns.map ColumnSchema.withoutDefault := by
  have hrows : (engine.tableInfo found.definition).rows =
      (createStatement (readSchema engine.tableInfo t table)).asWritten := by
    rw [hfound.definition, h.definition, ← SQLiteProvider.createStatement_text]
    exact h.reported
  have hagain := SQLiteProvider.tableSchema_created t (engine.tableInfo table.definition)
    table.rows.length found.rows.length h.ascii
  rw [readSchema, hrows, readSchema, hagain, tableSchema, List.map_map]
  rfl

/-- The rows of the source are transformed to the coerced rows. -/
theorem Resumable.transform (h : Resumable engine t table copy) :
    transform (buildColumnMappings (readSchema engine.tableInfo t table) none) table.rows =
      .ok (coercedRows engine.tableInfo t table) := by
  obtain ⟨col, hcol⟩ := List.exists_mem_of_ne_nil _ h.columns
  have hincluded : ∃ m ∈ buildColumnMappings (readSchema engine.tableInfo t table) none,
      m.included = true := ⟨_, List.mem_map_of_mem hcol, rfl⟩
  rw [MigrationExecutor.transform_of_included hincluded]
  exact h.rows

theorem tableOf_of_get? (h : source.get? t = some table) : tableOf source t = table := by
  rw [tableOf, h, Option.getD_some]

theorem consistent_jobCalls (h : AllResumable engine source copies ts) :
    (jobCalls engine source ts).Consistent := by
  intro t ht s dest hs hdest batch rows hfetched hrows
  obtain ⟨table, hsource, hcopy⟩ := h t ht
  obtain ⟨offset, limit, hbatch⟩ := hfetched
  have htable := tableOf_of_get? hsource
  have hmappings : buildColumnMappings s dest =
      buildColumnMappings (readSchema engine.tableInfo t table) none := by
    rw [jobCalls] at hs hdest
    dsimp only at hs hdest
    rw [htable] at hs hdest
    rw [hs]
    cases dest with
    | none => rfl
    | some d => exact buildColumnMappings_withoutDefaults (SQLiteProvider.nodup_names _ t _) (hdest d rfl)
  rw [hmappings] at hrows hbatch
  have hpage := MigrationExecutor.transform_selectRows hcopy.transform t offset limit
  rw [hbatch, htable, hpage] at hrows
  cases hrows
  have hpart : window (coercedRows engine.tableInfo t table) offset limit ⊆
      coercedRows engine.tableInfo t table := fun row hrow =>
    List.mem_of_mem_drop (List.mem_of_mem_take hrow)
  obtain ⟨cols, hcols⟩ := applyMappings_keys hcopy.rows
  refine ⟨?_, cols, fun row hrow => hcols row (hpart hrow)⟩
  rw [htable]
  exact hpart

/-! ## An attempt keeps a part of each copy -/

section serves

variable {α : Type} {P : α → Prop} {call : Call Exc SqliteSession α}

theorem yields_onSource
    (hcall : Yields (fun s : SqliteSession => s.conn = { committed := source }) P call) :
    Yields (Unfinished source copies ts start) P (onSource call : Call Exc (SqlitePair E) α) :=
  hcall.zoom (fun _ h => h.source) (fun _ _ h hs => ⟨hs, h.destination⟩)

theorem keeps_onSource
    (hcall : Keeps (fun s : SqliteSession => s.conn = { committed := source }) call) :
    Keeps (Unfinished source copies ts start) (onSource call : Call Exc (SqlitePair E) α) :=
  hcall.zoom (fun _ h => h.source) (fun _ _ h hs => ⟨hs, h.destination⟩)

theorem yields_onDestination (hcall : Yields
    (fun s : SqliteSession => s.conn.Always (Partway copies ts start)) P call) :
    Yields (Unfinished source copies ts start) P (onDestination call : Call Exc (SqlitePair E) α) :=
  hcall.zoom (fun _ h => h.destination) (fun _ _ h hs => ⟨h.source, hs⟩)

theorem keeps_onDestination (hcall : Keeps
    (fun s : SqliteSession => s.conn.Always (Partway copies ts start)) call) :
    Keeps (Unfinished source copies ts start) (onDestination call : Call Exc (SqlitePair E) α) :=
  hcall.zoom (fun _ h => h.destination) (fun _ _ h hs => ⟨h.source, hs⟩)

end serves

theorem nameOf_source (hsource : source.get? t = some table) (c : SqliteConnection)
    (hc : c = { committed := source }) : nameOf c.tables t = t := by
  rw [hc]
  exact SQLiteProvider.nameOf_of_mem (Dict.mem_keys_of_get? hsource)

theorem serves_jobCalls (hnames : NamesApart ts start)
    (h : AllResumable engine source copies ts) :
    (jobCalls engine source ts).Serves (Unfinished (E := E) source copies ts start)
      (sourceProvider engine).toBaseDatabaseProvider
      (destinationProvider engine).toBaseDatabaseProvider where
  readSource t ht := by
    obtain ⟨table, hsource, hcopy⟩ := h t ht
    have hread := SQLiteProvider.yields_getTableSchema engine (t := t)
      (I := fun c => c = { committed := source })
      (S := fun s => s = readSchema engine.tableInfo t (tableOf source t)) (nameOf_source hsource) (by
        intro c found hc hfound
        subst hc
        have hsame : found = table := Option.some.inj (hfound.symm.trans hsource)
        rw [tableOf_of_get? hsource, hsame]
        rfl)
    exact yields_onSource hread
  tableExists t _ := keeps_onDestination (SQLiteProvider.keeps_tableExists engine t)
  readDestination t ht := by
    obtain ⟨table, hsource, hcopy⟩ := h t ht
    refine yields_onDestination (SQLiteProvider.yields_getTableSchema engine
      (fun c hc => hc.tables.nameOf hnames ht) ?_)
    intro c found hc hfound
    have hpart : (copies t).PartOf found := hc.tables.tables t ht found hfound
    change _ = (readSchema engine.tableInfo t (tableOf source t)).columns.map
      ColumnSchema.withoutDefault
    rw [tableOf_of_get? hsource]
    exact hcopy.readSchema_part hpart
  fetchBatch t ht offset limit cols := by
    obtain ⟨table, hsource, -⟩ := h t ht
    have hpage := SQLiteProvider.yields_fetchBatch engine (I := fun c => c = { committed := source })
      (B := (jobCalls engine source ts).fetched t cols) (nameOf_source hsource) offset limit cols (by
        intro c hc
        subst hc
        refine ⟨offset, limit, ?_⟩
        rw [tableOf_of_get? hsource]
        simp [SqliteConnection.tables, hsource])
    exact yields_onSource hpage
  createTable t ht schema hs := by
    obtain ⟨table, hsource, hcopy⟩ := h t ht
    have hread : schema = readSchema engine.tableInfo t table := by
      rw [← tableOf_of_get? hsource]
      exact hs
    have hcreated : (copies t).PartOf ⟨tableDefinition schema, []⟩ := by
      rw [hread, ← hcopy.definition]
      exact SqliteTable.partOf_created _ _
    have hname : schema.name = t := by
      rw [hread]
      rfl
    refine keeps_onDestination (SQLiteProvider.keeps_createTable engine schema ?_ ?_)
    · rw [hname]
      exact fun tables htables => htables.nameOf hnames ht
    · rw [hname]
      exact fun tables htables _ => htables.set ht hcreated
  truncateTable t ht := by
    refine keeps_onDestination (SQLiteProvider.keeps_truncateTable engine
      (fun tables htables => htables.nameOf hnames ht) ?_)
    intro tables table htables hfound
    have hpart := htables.tables t ht table hfound
    exact htables.set ht ⟨hpart.definition, List.nodup_nil, by simp⟩
  insertBatch t ht rows hrows := by
    obtain ⟨table, hsource, hcopy⟩ := h t ht
    obtain ⟨hsubset, cols, hcols⟩ := hrows
    obtain ⟨keyColumns, hkeyed⟩ := hcopy.keyed
    rw [tableOf_of_get? hsource] at hsubset
    obtain ⟨news, hnews, hnewSubset⟩ := SQLiteProvider.stores_subset hcopy.stored hsubset
    have hstored : ∀ tables table, Partway copies ts start tables → tables.get? t = some table →
        List.Forall₂ (Stores engine t table.definition) rows news := by
      intro tables table htables hfound
      rw [(htables.tables t ht table hfound).definition]
      exact hnews
    refine keeps_onDestination (SQLiteProvider.keeps_insertBatch engine
      (fun tables htables => htables.nameOf hnames ht) hcols hstored ?_)
    · intro tables found n htables hfound
      have hpart := htables.tables t ht found hfound
      have htaken : news.take n ⊆ (copies t).rows := fun row hrow =>
        hnewSubset (List.mem_of_mem_take hrow)
      exact htables.set ht (hpart.addRows hkeyed htaken)

/-- Opening and closing the two connections changes nothing that is committed. -/
theorem keeps_reopen_pair (E : Type) (engine : SqliteEngine) (source start : SqliteTables)
    (copies : String → SqliteTable) (ts : List String) :
    (Keeps (Unfinished (E := E) source copies ts start) (sourceProvider engine).connect ∧
      Keeps (Unfinished (E := E) source copies ts start)
        (sourceProvider engine).disconnect) ∧
    Keeps (Unfinished (E := E) source copies ts start)
      (destinationProvider engine).connect ∧
      Keeps (Unfinished (E := E) source copies ts start)
        (destinationProvider engine).disconnect := by
  have hsource := SQLiteProvider.keeps_reopen (I := fun c => c = { committed := source }) (by
    intro c hc
    subst hc
    rfl)
  have hdestination := SQLiteProvider.keeps_reopen (I := fun c => c.Always
    (Partway copies ts start)) fun c hc => hc.reopened
  exact ⟨⟨keeps_onSource hsource.1, keeps_onSource hsource.2⟩,
    keeps_onDestination hdestination.1, keeps_onDestination hdestination.2⟩

/-! ## A run that goes through -/

/-- The entry of the plan for a table of which the destination may have a part. -/
def resumedEntry (tableInfo : String → TableInfo) (source d : SqliteTables) (t : String) :
    MigrationTablePlan :=
  { entryOf tableInfo t (tableOf source t) with
    destinationSchema := (d.get? t).map (readSchema tableInfo t) }

/-- A table of which the destination has a part is planned as one that it has not. -/
theorem planned_resumedEntry (hsource : source.get? t = some table)
    (hcopy : Resumable engine t table copy)
    (hpart : ∀ found, d.get? t = some found → copy.PartOf found) :
    MigrationPlanner.planned (catalogues engine.tableInfo source d) t =
      [resumedEntry engine.tableInfo source d t] := by
  have hschema : (catalogues engine.tableInfo source d).sourceSchema t =
      .ok (readSchema engine.tableInfo t table) := by
    change schemaOf engine.tableInfo source t = _
    rw [schemaOf, hsource]
    rfl
  have htable := tableOf_of_get? hsource
  rw [MigrationPlanner.planned, MigrationPlanner.planStep, hschema]
  dsimp only
  cases hfound : d.get? t with
  | none =>
    have habsent : t ∉ d.keys := (d.get?_eq_none t).mp hfound
    have hpresent : (catalogues engine.tableInfo source d).present t = false := by
      simp [catalogues, habsent]
    have hvalid : validateSchemaCompatibility (readSchema engine.tableInfo t table) none = .ok [] := by
      rw [validateSchemaCompatibility, if_neg hcopy.columns]
    rw [hpresent, if_neg Bool.false_ne_true, MigrationPlanner.planTable, hvalid, resumedEntry,
      entryOf, htable, hfound]
    rfl
  | some found =>
    have hpresent : (catalogues engine.tableInfo source d).present t = true := by
      simp [catalogues, Dict.mem_keys_of_get? hfound]
    have hdest : (catalogues engine.tableInfo source d).destinationSchema t =
        .ok (readSchema engine.tableInfo t found) := by
      change schemaOf engine.tableInfo d t = _
      rw [schemaOf, hfound]
      rfl
    have hcolumns := hcopy.readSchema_part (hpart found hfound)
    have hnames : ((readSchema engine.tableInfo t table).columns.map (·.name)).Nodup :=
      SQLiteProvider.nodup_names _ t _
    have hvalid := validate_withoutDefaults hnames hcolumns hcopy.columns
    have hmappings := buildColumnMappings_withoutDefaults hnames hcolumns
    rw [hpresent, if_pos rfl, hdest]
    dsimp only
    rw [MigrationPlanner.planTable, hvalid, hmappings, resumedEntry, entryOf, htable, hfound]
    rfl

section executor

variable {W : Type} {x : MigrationExecutor W} (plannedAt : SqliteTables)

/-- Before its rows are copied, the table has a part of its copy, be it new, cleared or left. -/
theorem ready_resumed (hschema : x.includeSchema = true) (hsource : source.get? t = some table)
    (hcopy : Resumable engine t table copy) (hname : nameOf d t = t)
    (hpart : ∀ found, d.get? t = some found → copy.PartOf found) :
    (∃ found, (x.ready (store engine) d
        (resumedEntry engine.tableInfo source plannedAt t)).get? t = some found ∧ copy.PartOf found) ∧
      (∃ found, (x.created (store engine) d
        (resumedEntry engine.tableInfo source plannedAt t)).get? t = some found) ∧
      ∀ u, u ≠ t → (x.ready (store engine) d
        (resumedEntry engine.tableInfo source plannedAt t)).get? u = d.get? u := by
  have hcreated : ∃ found, (x.created (store engine) d
      (resumedEntry engine.tableInfo source plannedAt t)).get? t = some found ∧ copy.PartOf found ∧
      ∀ u, u ≠ t → (x.created (store engine) d
        (resumedEntry engine.tableInfo source plannedAt t)).get? u = d.get? u := by
    have hcreate : x.created (store engine) d
        (resumedEntry engine.tableInfo source plannedAt t) =
        if nameOf d t ∈ d.keys then d else d.set (nameOf d t) ⟨copy.definition, []⟩ := by
      rw [MigrationExecutor.created, if_pos hschema, hcopy.definition, ← tableOf_of_get? hsource]
      rfl
    rw [hcreate, hname]
    split
    · rename_i hmem
      obtain ⟨found, hfound⟩ := (Dict.mem_keys_iff_exists d t).mp hmem
      exact ⟨found, hfound, hpart found hfound, fun _ _ => rfl⟩
    · refine ⟨⟨copy.definition, []⟩, by simp, SqliteTable.partOf_created _ _, ?_⟩
      intro u hu
      rw [Dict.get?_set, if_neg hu]
  obtain ⟨found, hfound, hfoundPart, hothers⟩ := hcreated
  rw [MigrationExecutor.ready]
  split
  · have hclear : (store engine).clear (x.created (store engine) d
        (resumedEntry engine.tableInfo source plannedAt t)) t =
        (x.created (store engine) d (resumedEntry engine.tableInfo source plannedAt t)).set t
          { found with rows := [] } := SQLiteProvider.store_clear engine hfound
    change (∃ found, ((store engine).clear _ t).get? t = some found ∧ _) ∧ _ ∧
      ∀ u, u ≠ t → ((store engine).clear _ t).get? u = _
    rw [hclear]
    refine ⟨⟨{ found with rows := [] }, by simp, hfoundPart.definition, List.nodup_nil, by simp⟩,
      ⟨found, hfound⟩, ?_⟩
    intro u hu
    rw [Dict.get?_set, if_neg hu]
    exact hothers u hu
  · exact ⟨⟨found, hfound, hfoundPart⟩, ⟨found, hfound⟩, hothers⟩

theorem targetOf_resumed (hsource : source.get? t = some table)
    (hcopy : Resumable engine t table copy) :
    MigrationExecutor.transform (resumedEntry engine.tableInfo source plannedAt t).columnMappings
        table.rows = .ok (coercedRows engine.tableInfo t table) ∧
      targetOf (held source) (resumedEntry engine.tableInfo source plannedAt t) =
        coercedRows engine.tableInfo t table := by
  have htransform : MigrationExecutor.transform
      (resumedEntry engine.tableInfo source plannedAt t).columnMappings table.rows =
        .ok (coercedRows engine.tableInfo t table) := by
    rw [← hcopy.transform, ← tableOf_of_get? hsource]
    rfl
  have hheld : held source (resumedEntry engine.tableInfo source plannedAt t).tableName =
      some table.rows := by
    simp [held, resumedEntry, entryOf, hsource]
  exact ⟨htransform, by rw [targetOf, hheld, Option.getD_some, htransform]⟩

/-- The table of an entry can be copied, and has then all rows of its copy, each once. -/
theorem copied_resumed (hschema : x.includeSchema = true) (hdata : x.includeData = true)
    (hsource : source.get? t = some table) (hcopy : Resumable engine t table copy)
    (hname : nameOf d t = t) (hpart : ∀ found, d.get? t = some found → copy.PartOf found) :
    x.CanCopy (store engine) (held source) d
        (resumedEntry engine.tableInfo source plannedAt t) ∧
      (∃ rows, (x.copied (store engine) (held source) d
        (resumedEntry engine.tableInfo source plannedAt t)).get? t = some ⟨copy.definition, rows⟩ ∧
        rows.Perm copy.rows) ∧
      ∀ u, u ≠ t → (x.copied (store engine) (held source) d
        (resumedEntry engine.tableInfo source plannedAt t)).get? u = d.get? u := by
  obtain ⟨⟨found, hfound, hfoundPart⟩, ⟨made, hmade⟩, hothers⟩ :=
    ready_resumed (x := x) plannedAt hschema hsource hcopy hname hpart
  obtain ⟨htransform, htarget⟩ := targetOf_resumed plannedAt hsource hcopy
  obtain ⟨keyColumns, hkeyed⟩ := hcopy.keyed
  have hstored := hcopy.stored
  rw [← hfoundPart.definition] at hstored
  have hcopied : x.copied (store engine) (held source) d
      (resumedEntry engine.tableInfo source plannedAt t) =
      (x.ready (store engine) d (resumedEntry engine.tableInfo source plannedAt t)).set t
        (SQLiteProvider.addRows engine.ignores found copy.rows) := by
    rw [MigrationExecutor.copied, if_pos hdata, htarget]
    exact SQLiteProvider.insertRows_of_stores engine hfound hstored
  refine ⟨⟨?_, ?_⟩, ?_, ?_⟩
  · intro _
    simpa [store, resumedEntry, entryOf] using Dict.mem_keys_of_get? hmade
  · intro _
    refine ⟨table.rows, by simp [held, resumedEntry, entryOf, hsource],
      by rw [htarget]; exact htransform, ?_⟩
    rw [htarget]
    exact ⟨found, hfound, applyMappings_keys hcopy.rows, copy.rows, hstored⟩
  · refine ⟨_, ?_, hfoundPart.addRows_all hkeyed⟩
    rw [hcopied, Dict.get?_set, if_pos rfl]
    simp [SQLiteProvider.addRows, hfoundPart.definition]
  · intro u hu
    rw [hcopied, Dict.get?_set, if_neg hu]
    exact hothers u hu

/-- The tables of the plan, one after the other. -/
theorem carriedOut_resumed (hschema : x.includeSchema = true) (hdata : x.includeData = true)
    {all : List String} (hnames : NamesApart all start)
    (hcopies : AllResumable engine source copies all) (hpart : Partway copies all start d)
    (hts : ts ⊆ all) :
    x.Feasible (store engine) (held source)
        (ts.map (resumedEntry engine.tableInfo source plannedAt)) d ∧
      (∀ t ∈ ts, ∃ rows, (x.carriedOut (store engine) (held source)
        (ts.map (resumedEntry engine.tableInfo source plannedAt)) d).get? t =
          some ⟨(copies t).definition, rows⟩ ∧ rows.Perm (copies t).rows) ∧
      ∀ u, u ∉ ts → (x.carriedOut (store engine) (held source)
        (ts.map (resumedEntry engine.tableInfo source plannedAt)) d).get? u = d.get? u := by
  induction ts generalizing d with
  | nil =>
    refine ⟨trivial, ?_, fun _ _ => rfl⟩
    intro t ht
    cases ht
  | cons t ts ih =>
    obtain ⟨ht, hrest⟩ := List.cons_subset.mp hts
    obtain ⟨table, hsource, hcopy⟩ := hcopies t ht
    obtain ⟨hcan, ⟨rows, hrows, hperm⟩, hothers⟩ := copied_resumed (x := x)
      plannedAt hschema hdata hsource hcopy (hpart.nameOf hnames ht) (hpart.tables t ht)
    have hpending : (resumedEntry engine.tableInfo source plannedAt t).status ≠ .skipped := by
      simp [resumedEntry, entryOf]
    obtain ⟨keyColumns, hkeyed⟩ := hcopy.keyed
    have hnext : Partway copies all start (x.copied (store engine) (held source) d
        (resumedEntry engine.tableInfo source plannedAt t)) := by
      constructor
      · intro u hu found hfound
        by_cases heq : u = t
        · subst heq
          have hnodup : (copies u).rows.Nodup := hkeyed.1.of_map _
          rw [hrows] at hfound
          cases hfound
          exact ⟨rfl, hperm.nodup_iff.mpr hnodup, hperm.subset⟩
        · rw [hothers u heq] at hfound
          exact hpart.tables u hu found hfound
      · intro u hu
        rw [hothers u fun heq => hu (heq ▸ ht)]
        exact hpart.others u hu
    obtain ⟨hfeasible, htables, hunchanged⟩ := ih hnext hrest
    rw [MigrationExecutor.carriedOut] at htables hunchanged ⊢
    rw [List.map_cons, List.foldl_cons, if_neg hpending, MigrationExecutor.Feasible, if_neg hpending]
    refine ⟨⟨hcan, hfeasible⟩, ?_, ?_⟩
    · intro u hu
      by_cases hmem : u ∈ ts
      · exact htables u hmem
      · have heq : u = t := by
          rcases List.mem_cons.mp hu with heq | hin
          · exact heq
          · exact absurd hin hmem
        rw [hunchanged u hmem, heq]
        exact ⟨rows, hrows, hperm⟩
    · intro u hu
      have hne : u ≠ t := fun heq => hu (heq ▸ List.mem_cons_self)
      rw [hunchanged u (fun h => hu (List.mem_cons_of_mem _ h))]
      exact hothers u hne

end executor

theorem planned_resumed (hcopies : AllResumable engine source copies ts)
    (hpart : ∀ t ∈ ts, ∀ found, d.get? t = some found → (copies t).PartOf found) :
    (ts.foldl (MigrationPlanner.planStep (catalogues engine.tableInfo source d)) .empty).tables =
      ts.map (resumedEntry engine.tableInfo source d) := by
  rw [MigrationPlanner.foldl_planStep_tables, ← List.flatMap_singleton' (ts.map _),
    List.flatMap_map]
  apply List.flatMap_congr
  intro t ht
  obtain ⟨table, hsource, hcopy⟩ := hcopies t ht
  exact planned_resumedEntry hsource hcopy (hpart t ht)

end SqlitePair

/-! ## Attempts, and what comes between them -/

section attempts

variable {Cr E : Type} (engine : SqliteEngine)

/-- Nothing but its providers touches the two databases. -/
def TaskContext.Apart (x : TaskContext Cr (Intermittent (SqlitePair E))) : Prop :=
  ∀ sessions, x.withoutProviders.KeepsWorld fun w =>
    (w.world.source, w.world.destination) = sessions

/-- Whatever job is read from this row, its tables are among `ts`, and its providers are those of the
two databases. -/
structure TaskContext.CopiesPair (x : TaskContext Cr (Intermittent (SqlitePair E)))
    (faults : Nat → Option Exc) (ts : List String) (record : Migration) : Prop where
  tables : ∀ job, x.loadJob record.config = .ok job → ∀ t ∈ job.tables, t ∈ ts
  providers : ∀ job, x.loadJob record.config = .ok job → ∀ p, x.providers job = .ok p →
    p = ((SqlitePair.sourceProvider engine).intermittent faults,
      (SqlitePair.destinationProvider engine).intermittent faults)

/-- What may happen to a migration before it completes: an attempt, which ends in any way, with any
calls of the databases and anything else failing; and a restart, after which nothing is left of the
two connections, and everything else may have changed. -/
inductive Retried (Cr : Type) (ts : List String) (migrationId : String) :
    TaskState (Intermittent (SqlitePair E)) → TaskState (Intermittent (SqlitePair E)) → Prop where
  | attempt (x hook : TaskContext Cr (Intermittent (SqlitePair E))) (faults : Nat → Option Exc)
      (fuel : Nat) (s : TaskState (Intermittent (SqlitePair E))) (hx : x.Apart) (hhook : hook.Apart)
      (hjob : ∀ record, s.app.migrations.get? migrationId = some record →
        x.CopiesPair engine faults ts record) :
      Retried Cr ts migrationId s (x.celeryTask hook fuel migrationId s).2
  | restart (s s' : TaskState (Intermittent (SqlitePair E)))
      (hsource : s'.world.world.source.conn = s.world.world.source.conn.reopened)
      (hdestination : s'.world.world.destination.conn = s.world.world.destination.conn.reopened) :
      Retried Cr ts migrationId s s'

variable {engine} {source start : SqliteTables} {copies : String → SqliteTable}
  {ts : List String} {migrationId : String}

theorem TaskContext.Apart.keepsWorld {x : TaskContext Cr (Intermittent (SqlitePair E))}
    (h : x.Apart) : x.withoutProviders.KeepsWorld
      fun w => w.world.Unfinished source copies ts start := by
  have hkeeps : ∀ {α : Type} {call : Call Exc (Intermittent (SqlitePair E)) α},
      (∀ sessions, Keeps (fun w => (w.world.source, w.world.destination) = sessions) call) →
      Keeps (fun w => w.world.Unfinished source copies ts start) call := by
    intro α call hcall w hw
    have hsame : ∀ w' : Intermittent (SqlitePair E), (w'.world.source, w'.world.destination) =
        (w.world.source, w.world.destination) → w'.world.Unfinished source copies ts start := by
      intro w' heq
      obtain ⟨hs, hd⟩ := Prod.mk.inj heq
      exact ⟨hs ▸ hw.source, hd ▸ hw.destination⟩
    exact Call.wp_mono (hcall _ w rfl) (fun _ w' h => hsame w' h) (fun _ w' h => hsame w' h)
      (fun w' h => hsame w' h)
  exact {
    appDb := hkeeps fun sessions => (h sessions).appDb
    sockets := hkeeps fun sessions => (h sessions).sockets
    now := hkeeps fun sessions => (h sessions).now
    elapsed := hkeeps fun sessions => (h sessions).elapsed
    newUuid := hkeeps fun sessions => (h sessions).newUuid
    sleep := fun seconds => hkeeps fun sessions => (h sessions).sleep seconds
    provider := fun _ _ _ hp => by cases hp }

theorem TaskContext.CopiesPair.runsJob {x : TaskContext Cr (Intermittent (SqlitePair E))}
    {faults : Nat → Option Exc} {record : Migration}
    (h : x.CopiesPair engine faults ts record) (hnames : NamesApart ts start)
    (hcopies : SqlitePair.AllResumable engine source copies ts) {job : Job Cr}
    (hload : x.loadJob record.config = .ok job) :
    x.RunsJob (SqlitePair.jobCalls engine source ts)
      (fun w => w.world.Unfinished source copies ts start) job := by
  have hreopen := SqlitePair.keeps_reopen_pair E engine source start copies ts
  refine ⟨h.tables job hload, ?_, ?_, ?_⟩
  · intro src dst hp
    cases h.providers job hload _ hp
    exact (SqlitePair.serves_jobCalls hnames hcopies).intermittent
  · intro src dst hp
    cases h.providers job hload _ hp
    exact ⟨keeps_unhindered hreopen.1.1, keeps_unhindered hreopen.1.2⟩
  · intro src dst hp
    cases h.providers job hload _ hp
    exact ⟨keeps_unhindered hreopen.2.1, keeps_unhindered hreopen.2.2⟩

/-- An attempt, and a restart, leave the source as it was, and a part of each copy. -/
theorem Retried.unfinished {s s' : TaskState (Intermittent (SqlitePair E))}
    (hnames : NamesApart ts start) (hcopies : SqlitePair.AllResumable engine source copies ts)
    (h : Retried engine Cr ts migrationId s s')
    (hs : s.world.world.Unfinished source copies ts start) :
    s'.world.world.Unfinished source copies ts start := by
  cases h with
  | attempt x hook faults fuel s hx hhook hjob =>
    have hconsistent := SqlitePair.consistent_jobCalls hcopies
    exact TaskContext.keeps_celeryTask (J := fun w => w.world.Unfinished source copies ts start)
      hx.keepsWorld hhook.keepsWorld hconsistent fuel
      (fun record hrow job hload => (hjob record hrow).runsJob hnames hcopies hload) hs
  | restart s s' hsource hdestination =>
    refine ⟨?_, ?_⟩
    · rw [hsource, hs.source]
      rfl
    · rw [hdestination]
      exact hs.destination.reopened

theorem unfinished_history {s s' : TaskState (Intermittent (SqlitePair E))}
    (hnames : NamesApart ts start) (hcopies : SqlitePair.AllResumable engine source copies ts)
    (h : Relation.ReflTransGen (Retried engine Cr ts migrationId) s s')
    (hs : s.world.world.Unfinished source copies ts start) :
    s'.world.world.Unfinished source copies ts start := by
  induction h with
  | refl => exact hs
  | tail _ hstep ih => exact hstep.unfinished hnames hcopies ih

end attempts

private def gaugesInfo : TableInfo where
  rows := [⟨"id", "integer", true, none, 1⟩, ⟨"valid", "Boolean", false, none, 0⟩]
  nodup := by decide

private def gaugesTable : SqliteTable where
  definition := "id integer not null primary key, valid Boolean"
  rows := [Dict.ofList [("id", .int 7), ("valid", .str "yes")],
    Dict.ofList [("id", .int 8), ("valid", .int 0)]]

private def gaugesSchema : TableSchema := tableSchema "gauges" gaugesInfo.rows 2

/-- What SQLite reports of the table, and of the one that is created from it. -/
private def gaugesCatalogue (definition : String) : TableInfo :=
  if definition = gaugesTable.definition then gaugesInfo
  else if definition = (createStatement gaugesSchema).text then
    ⟨(createStatement gaugesSchema).asWritten, by decide⟩
  else ⟨[], List.nodup_nil⟩

private def gaugesCopy : SqliteTable where
  definition := tableDefinition gaugesSchema
  rows := [Dict.ofList [("id", .int 7), ("valid", .int 1)],
    Dict.ofList [("id", .int 8), ("valid", .int 0)]]

/-- The key of the new table is the id, which is its rowid. -/
private def gaugesEngine : SqliteEngine where
  tableInfo := gaugesCatalogue
  ignores _ rows row := Keyed.sameKey (Row.key ["id"]) rows row
  reals := { nearest := .finite, text := fun _ => "" }
  newRowid old := old.length + 1

private def gaugesSource : SqliteTables := Dict.ofList [("gauges", gaugesTable)]

private def notesOnly : SqliteTables := Dict.ofList [("notes", ⟨"\"id\" INTEGER", []⟩)]

/-- Every second call for rows fails. -/
private def lockedEverySecond (n : Nat) : Option Exc :=
  if n % 2 = 0 then some ⟨.other, "database is locked"⟩ else none

private theorem lockedEverySecond_recovers : Intermittent.Recovers lockedEverySecond 1 := by
  intro n
  by_cases hn : n % 2 = 0
  · have hodd : (n + 1) % 2 ≠ 0 := by omega
    exact ⟨1, by omega, if_neg hodd⟩
  · exact ⟨0, by omega, if_neg hn⟩

private def gaugesJob : Job Bool where
  tables := ["gauges"]
  migSettings := { batchSize := 1, maxRetries := 1 }
  srcCreds := true
  dstCreds := false

private def gaugesTask : TaskContext Bool (Intermittent (SqlitePair Nat)) where
  loadsTables _ := .ok gaugesJob.tables
  loadsSettings _ := .ok gaugesJob.migSettings
  decryptCredentials connection := .ok (connection = "old.db")
  databaseType _ := some "sqlite"
  getProvider _ old := .ok (if old
    then (SqlitePair.sourceProvider gaugesEngine).intermittent lockedEverySecond
    else (SqlitePair.destinationProvider gaugesEngine).intermittent lockedEverySecond)
  now := pure 40
  elapsed := pure 1
  newUuid := pure "id"

private def gaugesRecord : Migration where
  sourceConnection := "old.db"
  destinationConnection := "new.db"

/-- The ninth statement on the destination raises: the insert of the second row. -/
private def gaugesFirst : TaskState (Intermittent (SqlitePair Nat)) where
  app := { migrations := Dict.ofList [("m", gaugesRecord)] }
  world :=
    { world :=
        { source := ⟨{ committed := gaugesSource }, []⟩
          destination := ⟨{ committed := notesOnly },
            List.replicate 8 none ++ [some ⟨0, ⟨.other, "disk I/O error"⟩⟩]⟩
          rest := 0 }
      calls := 0 }

private def gaugesFailed : TaskState (Intermittent (SqlitePair Nat)) :=
  (gaugesTask.celeryTask gaugesTask 6 "m" gaugesFirst).2

/-- Started once more, by another worker. -/
private def gaugesAgain : TaskState (Intermittent (SqlitePair Nat)) where
  app := { migrations := Dict.ofList [("m", gaugesRecord)] }
  world :=
    { world :=
        { source := ⟨{ committed := gaugesSource }, []⟩
          destination := ⟨gaugesFailed.world.world.destination.conn.reopened, []⟩
          rest := 0 }
      calls := 0 }

private theorem gauges_stored : List.Forall₂ (Stores gaugesEngine "gauges" gaugesCopy.definition)
    (SqlitePair.coercedRows gaugesCatalogue "gauges" gaugesTable) gaugesCopy.rows := by
  have hcoerced : SqlitePair.coercedRows gaugesCatalogue "gauges" gaugesTable =
      [Dict.ofList [("id", .int 7), ("valid", .bool true)],
        Dict.ofList [("id", .int 8), ("valid", .bool false)]] := by
    decide +kernel
  rw [hcoerced]
  exact .cons (fun _ => rfl) (.cons (fun _ => rfl) .nil)

private theorem gauges_writable :
    SqlitePair.Writable (SqlitePair.readSchema gaugesEngine.tableInfo "gauges" gaugesTable) where
  names := ⟨by decide +kernel, by decide +kernel⟩
  types := by
    change ∀ col ∈ (SqlitePair.readSchema gaugesEngine.tableInfo "gauges" gaugesTable).columns,
      plainText col.dataType = true
    decide +kernel
  pragma := by decide
  allowed := by decide

private theorem gauges_resumable :
    SqlitePair.AllResumable gaugesEngine gaugesSource (fun _ => gaugesCopy) ["gauges"] := by
  intro t ht
  rw [List.mem_singleton.mp ht]
  refine ⟨gaugesTable, rfl, ?_⟩
  exact { writable := gauges_writable, columns := by decide, definition := by decide +kernel,
          rows := by decide +kernel, stored := gauges_stored, ascii := by decide +kernel,
          reported := by change _ = _; decide +kernel,
          keyed := ⟨["id"], by decide +kernel, fun _ _ _ _ => rfl⟩ }

private theorem gauges_undisturbed : gaugesTask.Undisturbed
    (Intermittent.Amid lockedEverySecond (SqlitePair.Holds gaugesSource)) where
  appDb _ := Call.simulates_pure rfl
  sockets _ := Call.simulates_pure rfl
  now _ := Call.simulates_pure rfl
  elapsed _ := Call.simulates_pure rfl
  newUuid _ := Call.simulates_pure rfl
  sleep _ _ := Call.simulates_pure rfl

private theorem gauges_apart : gaugesTask.Apart := fun _ =>
  { appDb := Call.keeps_pure _
    sockets := Call.keeps_pure _
    now := Call.keeps_pure _
    elapsed := Call.keeps_pure _
    newUuid := Call.keeps_pure _
    sleep := fun _ => Call.keeps_pure _
    provider := fun _ _ _ h => by cases h }

private theorem gauges_copiesPair (record : Migration) (h : record.config = gaugesRecord.config) :
    gaugesTask.CopiesPair gaugesEngine lockedEverySecond ["gauges"] record := by
  have hload : ∀ job, gaugesTask.loadJob record.config = .ok job → job = gaugesJob := by
    intro job hjob
    rw [h] at hjob
    cases hjob
    rfl
  refine ⟨?_, ?_⟩
  · intro job hjob
    rw [hload job hjob]
    exact fun t ht => ht
  · intro job hjob p hp
    rw [hload job hjob] at hp
    cases hp
    rfl

end DataBridge
