import DataBridge.Framework.ExceptList
import DataBridge.Framework.TiedOrder
import DataBridge.Services.MigrationService

namespace DataBridge

open TiedOrder (Sorts CutsTie)

inductive LogLevel where
  | DEBUG
  | INFO
  | WARNING
  | ERROR
  | CRITICAL
  deriving DecidableEq, Repr

namespace LogLevel

def value : LogLevel → String
  | DEBUG => "DEBUG"
  | INFO => "INFO"
  | WARNING => "WARNING"
  | ERROR => "ERROR"
  | CRITICAL => "CRITICAL"

def all : List LogLevel := [DEBUG, INFO, WARNING, ERROR, CRITICAL]

/-- The validation of a field of this type. -/
def ofValue? (value : String) : Option LogLevel := all.find? fun level => level.value = value

end LogLevel

structure MigrationLogEntry where
  id : String
  timestamp : Nat
  level : LogLevel
  message : String
  tableName : Option String
  deriving DecidableEq, Repr

structure MigrationLogsResponse where
  migrationId : String
  logs : List MigrationLogEntry
  total : Nat
  deriving DecidableEq, Repr

/-- A way in which the database answers `ORDER BY created_at`: rows with equal keys come in any
order. -/
structure LogOrder where
  answer : List MigrationLog → List MigrationLog
  sorts : ∀ rows, Sorts MigrationLog.createdAt rows (answer rows)

/-- `WHERE migration_id = …`. -/
def AppDb.logsOf (db : AppDb) (migrationId : String) : List MigrationLog :=
  db.logs.filter fun row => row.migrationId = migrationId

namespace MigrationService

/-- `MigrationLogEntry(…)` of a row. -/
def logEntry (row : MigrationLog) : Except Exc MigrationLogEntry :=
  match LogLevel.ofValue? row.level with
  | none => .error ⟨.valueError,
      "Input should be 'DEBUG', 'INFO', 'WARNING', 'ERROR' or 'CRITICAL'"⟩
  | some level => .ok ⟨row.id, row.createdAt, level, row.message, row.tableName⟩

def getLogs (order : LogOrder) (db : AppDb) (migrationId : String) (limit offset : Nat) :
    Except Exc MigrationLogsResponse :=
  match db.migrations.get? migrationId with
  | none => .error (migrationNotFound migrationId)
  | some _ => do
    let logRows := ((order.answer (db.logsOf migrationId)).drop offset).take limit
    let total := (db.logsOf migrationId).length
    let entries ← logRows.mapM logEntry
    pure ⟨migrationId, entries, total⟩

/-- A reader of the whole log: `get_logs` at the offsets 0, `limit`, 2 · `limit`, ... up to the
total. Each of its queries is answered in an order of its own. -/
def readLogs (orders : Nat → LogOrder) (db : AppDb) (migrationId : String) (limit : Nat) :
    Except Exc (List MigrationLogEntry) := do
  let total := (db.logsOf migrationId).length
  let responses ← (List.range (total / limit + 1)).mapM fun k =>
    getLogs (orders k) db migrationId limit (k * limit)
  pure (responses.flatMap (·.logs))

/-- The read gives every entry once, and the timestamps do not decrease. -/
structure Partitions (db : AppDb) (migrationId : String) (entries : List MigrationLogEntry) :
    Prop where
  each : ∃ all, (db.logsOf migrationId).mapM logEntry = .ok all ∧ entries.Perm all
  ordered : entries.Pairwise fun e e' => e.timestamp ≤ e'.timestamp

/-- Every row of the log has one of the levels that an entry may have. -/
def LevelsKnown (db : AppDb) (migrationId : String) : Prop :=
  ∀ row ∈ db.logsOf migrationId, ∃ level, LogLevel.ofValue? row.level = some level

variable {db : AppDb} {migrationId : String} {limit : Nat} {orders : Nat → LogOrder}
  {entries : List MigrationLogEntry}

theorem logEntry_fields {row : MigrationLog} {entry : MigrationLogEntry}
    (h : logEntry row = .ok entry) : entry.id = row.id ∧ entry.timestamp = row.createdAt := by
  rw [logEntry] at h
  split at h
  · cases h
  · cases h
    exact ⟨rfl, rfl⟩

theorem logEntry_ok {row : MigrationLog} (h : ∃ level, LogLevel.ofValue? row.level = some level) :
    ∃ entry, logEntry row = .ok entry := by
  obtain ⟨level, hlevel⟩ := h
  exact ⟨⟨row.id, row.createdAt, level, row.message, row.tableName⟩, by rw [logEntry, hlevel]⟩

theorem levelsKnown_of_ok (h : (db.logsOf migrationId).mapM logEntry = .ok entries) :
    LevelsKnown db migrationId := by
  intro row hrow
  obtain ⟨entry, hentry⟩ := ExceptList.mapM_ok_mem h hrow
  rw [logEntry] at hentry
  split at hentry
  · cases hentry
  · exact ⟨_, by assumption⟩

/-- The rows that the pages of a read show. -/
def shownRows (orders : Nat → LogOrder) (db : AppDb) (migrationId : String) (limit : Nat) :
    List MigrationLog :=
  TiedOrder.pages (fun k => (orders k).answer (db.logsOf migrationId)) limit
    ((db.logsOf migrationId).length / limit + 1)

theorem getLogs_found {record : Migration}
    (hrow : db.migrations.get? migrationId = some record) (order : LogOrder) (offset : Nat) :
    getLogs order db migrationId limit offset = (do
      let entries ← (((order.answer (db.logsOf migrationId)).drop offset).take limit).mapM logEntry
      pure ⟨migrationId, entries, (db.logsOf migrationId).length⟩) := by
  rw [getLogs, hrow]

/-- Reading page after page makes entries of all rows that the pages show. -/
theorem readLogs_eq {record : Migration} (hrow : db.migrations.get? migrationId = some record) :
    readLogs orders db migrationId limit =
      (shownRows orders db migrationId limit).mapM logEntry := by
  rw [readLogs, shownRows, TiedOrder.pages]
  induction List.range ((db.logsOf migrationId).length / limit + 1) with
  | nil => rfl
  | cons k ks ih =>
    rw [List.mapM_cons, List.flatMap_cons, List.mapM_append, ← ih, getLogs_found hrow]
    cases (((orders k).answer (db.logsOf migrationId)).drop (k * limit)).take limit
      |>.mapM logEntry with
    | error exc => rfl
    | ok first =>
      cases ks.mapM fun k => getLogs (orders k) db migrationId limit (k * limit) with
      | error exc => rfl
      | ok rest => rfl

theorem length_le_pages (n : Nat) (hlimit : 1 ≤ limit) : n ≤ (n / limit + 1) * limit := by
  have hdiv := Nat.lt_div_mul_add hlimit (a := n)
  rw [Nat.succ_mul]
  exact hdiv.le

/-- The order in which a read shows the rows is that of the timestamps, whatever was chosen. -/
theorem ordered_of_readLogs
    (h : (shownRows orders db migrationId limit).mapM logEntry = .ok entries) :
    entries.Pairwise fun e e' => e.timestamp ≤ e'.timestamp := by
  have htimes : entries.map (·.timestamp) =
      (shownRows orders db migrationId limit).map (·.createdAt) :=
    ExceptList.mapM_map_eq (fun _ _ h => (logEntry_fields h).2) h
  have hsorted : (shownRows orders db migrationId limit).Pairwise
      fun row row' => row.createdAt ≤ row'.createdAt :=
    TiedOrder.pages_sorted (fun k => (orders k).sorts (db.logsOf migrationId)) _
  rw [← List.pairwise_map, htimes, List.pairwise_map]
  exact hsorted

theorem shownRows_perm (hlimit : 1 ≤ limit)
    (huncut : ¬ CutsTie MigrationLog.createdAt (db.logsOf migrationId) limit) :
    (shownRows orders db migrationId limit).Perm (db.logsOf migrationId) :=
  TiedOrder.pages_perm (fun k => (orders k).sorts (db.logsOf migrationId)) huncut
    (length_le_pages _ hlimit)

/-- Where no group of equal timestamps is cut, every choice of the database gives a partition. -/
theorem partitions_of_uncut {record : Migration}
    (hrow : db.migrations.get? migrationId = some record) (hlimit : 1 ≤ limit)
    (hlevels : LevelsKnown db migrationId)
    (huncut : ¬ CutsTie MigrationLog.createdAt (db.logsOf migrationId) limit) :
    ∃ entries, readLogs orders db migrationId limit = .ok entries ∧
      Partitions db migrationId entries := by
  have hperm : (shownRows orders db migrationId limit).Perm (db.logsOf migrationId) :=
    shownRows_perm hlimit huncut
  obtain ⟨all, hall⟩ : ∃ all, (db.logsOf migrationId).mapM logEntry = .ok all :=
    ExceptList.mapM_exists fun row hmem => logEntry_ok (hlevels row hmem)
  obtain ⟨entries, hentries⟩ :
      ∃ entries, (shownRows orders db migrationId limit).mapM logEntry = .ok entries :=
    ExceptList.mapM_exists fun row hmem => logEntry_ok (hlevels row (hperm.mem_iff.mp hmem))
  refine ⟨entries, ?_, ⟨all, hall, ?_⟩, ordered_of_readLogs hentries⟩
  · rw [readLogs_eq hrow]
    exact hentries
  · exact ExceptList.mapM_perm hperm hentries hall

/-- The order that answers one query of all as it is told. -/
def LogOrder.telling (rows answer : List MigrationLog)
    (h : Sorts MigrationLog.createdAt rows answer) : LogOrder where
  answer asked := if asked = rows then answer else
    asked.mergeSort fun x y => decide (x.createdAt ≤ y.createdAt)
  sorts asked := by
    split
    · rename_i heq
      rw [heq]
      exact h
    · exact TiedOrder.sorts_mergeSort

/-- A partition shows no row twice. -/
theorem nodup_of_partitions
    (hkeys : ((db.logsOf migrationId).map (·.id)).Nodup)
    (h : (shownRows orders db migrationId limit).mapM logEntry = .ok entries)
    (hpartitions : Partitions db migrationId entries) :
    (shownRows orders db migrationId limit).Nodup := by
  obtain ⟨all, hall, hperm⟩ := hpartitions.each
  have hshown : entries.map (·.id) = (shownRows orders db migrationId limit).map (·.id) :=
    ExceptList.mapM_map_eq (fun _ _ h => (logEntry_fields h).1) h
  have hrows : all.map (·.id) = (db.logsOf migrationId).map (·.id) :=
    ExceptList.mapM_map_eq (fun _ _ h => (logEntry_fields h).1) hall
  have hids := hperm.map (·.id)
  rw [hshown, hrows] at hids
  exact List.Nodup.of_map _ (hids.nodup_iff.mpr hkeys)

/-- Every choice of the database gives a partition exactly where no group of equal timestamps lies
across the end of a page. -/
theorem logs_partition_iff (db : AppDb) (migrationId : String) (limit : Nat)
    {record : Migration} (hrow : db.migrations.get? migrationId = some record)
    (hkeys : ((db.logsOf migrationId).map (·.id)).Nodup) (hlimit : 1 ≤ limit) :
    (∀ orders, ∃ entries, readLogs orders db migrationId limit = .ok entries ∧
        Partitions db migrationId entries) ↔
      LevelsKnown db migrationId ∧
        ¬ CutsTie MigrationLog.createdAt (db.logsOf migrationId) limit := by
  constructor
  · intro h
    constructor
    · obtain ⟨_, _, hpartitions⟩ := h fun _ => LogOrder.telling (db.logsOf migrationId) _
        TiedOrder.sorts_mergeSort
      obtain ⟨all, hall, _⟩ := hpartitions.each
      exact levelsKnown_of_ok hall
    · intro hcut
      obtain ⟨answers, hanswers, hrepeated⟩ :=
        TiedOrder.exists_repeated hcut (length_le_pages _ hlimit)
      obtain ⟨entries, hread, hpartitions⟩ := h fun k => LogOrder.telling _ _ (hanswers k)
      rw [readLogs_eq hrow] at hread
      apply hrepeated
      have hnodup := nodup_of_partitions hkeys hread hpartitions
      simpa only [shownRows, LogOrder.telling, if_true] using hnodup
  · rintro ⟨hlevels, huncut⟩ orders
    exact partitions_of_uncut hrow hlimit hlevels huncut

private def oneMigration : Dict String Migration :=
  Dict.empty.set "m" { sourceConnection := "source", destinationConnection := "destination" }

private def startLog (createdAt : Nat) : MigrationLog :=
  ⟨"log-1", "m", "INFO", "Starting migration of table 't'", some "t", createdAt⟩

private def fetchLog (createdAt : Nat) : MigrationLog :=
  ⟨"log-2", "m", "ERROR", "Failed to fetch batch", some "t", createdAt⟩

/-- Entries of different instants, read one a page. -/
theorem logs_partition_iff_instants :
    (∀ orders, ∃ entries,
        readLogs orders ⟨oneMigration, [startLog 3, fetchLog 5]⟩ "m" 1 = .ok entries ∧
          Partitions ⟨oneMigration, [startLog 3, fetchLog 5]⟩ "m" entries) ∧
      ¬ CutsTie MigrationLog.createdAt [startLog 3, fetchLog 5] 1 := by
  have huncut : ¬ CutsTie MigrationLog.createdAt [startLog 3, fetchLog 5] 1 :=
    TiedOrder.not_cutsTie_of_nodup (by decide)
  have hlevels : LevelsKnown ⟨oneMigration, [startLog 3, fetchLog 5]⟩ "m" := by
    intro row hrow
    have hcases : row = startLog 3 ∨ row = fetchLog 5 := by
      simpa [AppDb.logsOf, startLog, fetchLog] using hrow
    rcases hcases with rfl | rfl
    · exact ⟨.INFO, by decide⟩
    · exact ⟨.ERROR, by decide⟩
  have hiff := logs_partition_iff ⟨oneMigration, [startLog 3, fetchLog 5]⟩ "m" 1 rfl (by decide)
    (by decide)
  exact ⟨hiff.mpr ⟨hlevels, huncut⟩, huncut⟩

private def tiedLogs : AppDb := ⟨oneMigration, [startLog 7, fetchLog 7]⟩

/-- Two answers to the same query, the entries of one instant in either order. -/
private def tiedOrders (k : Nat) : LogOrder :=
  if k = 0 then LogOrder.telling [startLog 7, fetchLog 7] [startLog 7, fetchLog 7]
    ⟨List.Perm.refl _, by decide⟩
  else LogOrder.telling [startLog 7, fetchLog 7] [fetchLog 7, startLog 7]
    ⟨List.Perm.swap _ _ _, by decide⟩

/-- Two entries of one instant: both pages show the first, none shows the second. -/
theorem tied_logs_repeated :
    readLogs tiedOrders tiedLogs "m" 1 =
        .ok [⟨"log-1", 7, .INFO, "Starting migration of table 't'", some "t"⟩,
          ⟨"log-1", 7, .INFO, "Starting migration of table 't'", some "t"⟩] ∧
      ¬ ∃ entries, readLogs tiedOrders tiedLogs "m" 1 = .ok entries ∧
        Partitions tiedLogs "m" entries := by
  have hread : readLogs tiedOrders tiedLogs "m" 1 =
      .ok [⟨"log-1", 7, .INFO, "Starting migration of table 't'", some "t"⟩,
        ⟨"log-1", 7, .INFO, "Starting migration of table 't'", some "t"⟩] := by decide +kernel
  refine ⟨hread, ?_⟩
  rintro ⟨entries, hentries, hpartitions⟩
  rw [hread] at hentries
  cases hentries
  obtain ⟨all, hall, hperm⟩ := hpartitions.each
  have hrows : (tiedLogs.logsOf "m").mapM logEntry =
      .ok [⟨"log-1", 7, .INFO, "Starting migration of table 't'", some "t"⟩,
        ⟨"log-2", 7, .ERROR, "Failed to fetch batch", some "t"⟩] := by decide +kernel
  rw [hrows] at hall
  cases hall
  exact absurd (hperm.mem_iff.mpr (List.mem_cons_of_mem _ List.mem_cons_self)) (by decide)

end MigrationService

end DataBridge
