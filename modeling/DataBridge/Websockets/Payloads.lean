import DataBridge.Framework.Json
import DataBridge.Workers.MigrationTasks

namespace DataBridge

namespace Json

def text (value : Option String) : Json := value.elim null str

def texts (values : List String) : Json := .arr (values.map str)

@[simp] theorem str_inj (s t : String) : str s = str t ↔ s = t := by
  simp [str]

@[simp] theorem int_inj (i j : Int) : int i = int j ↔ i = j := by
  simp [int]

@[simp] theorem text_inj (s t : Option String) : text s = text t ↔ s = t := by
  cases s <;> cases t <;> simp [text, null, str]

@[simp] theorem texts_inj (xs ys : List String) : texts xs = texts ys ↔ xs = ys := by
  have hstr : Function.Injective str := fun s t h => (str_inj s t).mp h
  rw [texts, texts, arr.injEq, List.map_inj_right hstr]

@[simp] theorem distinct_str (s : String) : (str s).Distinct := trivial

@[simp] theorem distinct_int (i : Int) : (int i).Distinct := trivial

@[simp] theorem distinct_text (value : Option String) : (text value).Distinct := by
  cases value <;> trivial

@[simp] theorem distinct_texts (values : List String) : (texts values).Distinct := by
  change DistinctItems (values.map str)
  induction values with
  | nil => trivial
  | cons v vs ih => exact ⟨trivial, ih⟩

end Json

open Json (str int text texts)

/-- The dict that `executor.run` returns, in the order of its keys. -/
def ExecResult.members (result : ExecResult) : List (String × Json) :=
  [("completed_tables", texts result.completedTables), ("skipped_tables", texts result.skippedTables),
    ("failed_tables", texts result.failedTables), ("total_rows_migrated", int result.totalRowsMigrated)]

namespace Event

/-- The payloads of `send_progress`, `send_log`, `send_completed` and `send_failed`. -/
def payload (migrationId : String) : Event → Json
  | progress status percent currentTable processedRows totalRows speed estimatedTimeRemaining =>
    .obj [("type", str "progress"), ("migration_id", str migrationId), ("status", str status.value),
      ("progress", int percent), ("current_table", str currentTable),
      ("processed_rows", int processedRows), ("total_rows", int totalRows), ("speed", int speed),
      ("estimated_time_remaining", int estimatedTimeRemaining)]
  | log level message tableName =>
    .obj [("type", str "log"), ("migration_id", str migrationId), ("level", str level),
      ("message", str message), ("table_name", text tableName)]
  | completed result =>
    .obj ([("type", str "completed"), ("migration_id", str migrationId)] ++ result.members)
  | failed error =>
    .obj [("type", str "failed"), ("migration_id", str migrationId), ("error", str error)]

/-- The text that `broadcast` sends for an event. -/
def message (migrationId : String) (event : Event) : String :=
  Json.dumps .python (event.payload migrationId)

/-- The keys of a payload, which its "type" determines. -/
def keys : Event → List String
  | progress .. => ["type", "migration_id", "status", "progress", "current_table", "processed_rows",
      "total_rows", "speed", "estimated_time_remaining"]
  | log .. => ["type", "migration_id", "level", "message", "table_name"]
  | completed .. => ["type", "migration_id", "completed_tables", "skipped_tables", "failed_tables",
      "total_rows_migrated"]
  | failed .. => ["type", "migration_id", "error"]

theorem keys_nodup (event : Event) : event.keys.Nodup := by
  cases event <;> simp only [keys] <;> decide

theorem payload_distinct (migrationId : String) (event : Event) :
    (event.payload migrationId).Distinct := by
  have hkeys := event.keys_nodup
  cases event <;> exact ⟨hkeys, by simp [ExecResult.members, Json.DistinctMembers]⟩

/-- A client that parses what it is sent gets the payload back. -/
theorem loads_message (migrationId : String) (event : Event) :
    Json.loads (event.message migrationId) = some (event.payload migrationId) :=
  Json.loads_dumps .python _ (event.payload_distinct migrationId)

theorem payload_inj {migrationId migrationId' : String} {event event' : Event}
    (h : event.payload migrationId = event'.payload migrationId') :
    migrationId = migrationId' ∧ event = event' := by
  have hstatus := MigrationStatus.value_injective
  cases event <;> cases event' <;>
    simp only [payload, ExecResult.members, Json.obj.injEq, List.cons_append, List.nil_append,
      List.cons.injEq, Prod.mk.injEq, Json.str_inj, Json.int_inj, Json.text_inj, Json.texts_inj,
      Nat.cast_inj, hstatus.eq_iff, true_and, and_true] at h
  case completed.completed result result' =>
    obtain ⟨hid, hcompleted, hskipped, hfailed, htotal⟩ := h
    have hresult : result = result' := by
      cases result
      cases result'
      simp_all
    exact ⟨hid, by rw [hresult]⟩
  all_goals simp_all

/-- A client that parses a text it is sent gets the payload of the event, and no other event, of this
migration or of another one, has that text. -/
theorem message_faithful (migrationId : String) (event : Event) :
    Json.loads (event.message migrationId) = some (event.payload migrationId) ∧
      ∀ migrationId' event', event'.message migrationId' = event.message migrationId →
        migrationId' = migrationId ∧ event' = event := by
  refine ⟨event.loads_message migrationId, ?_⟩
  intro migrationId' event' hmessage
  have hloads := event'.loads_message migrationId'
  rw [hmessage, event.loads_message migrationId] at hloads
  exact payload_inj (Option.some.inj hloads).symm

end Event

end DataBridge
