import DataBridge.Framework.ExceptList
import DataBridge.Framework.Json
import DataBridge.Schemas.Migration

namespace DataBridge

open Json (Style)

/-! ## The list of tables -/

/-- `json.dumps(tables)`. -/
def dumpsTables (tables : List String) : String := Json.dumps .python (.arr (tables.map Json.str))

/-- What `MigrationSettings(**members)` and the texts of its errors come from: the conversion of a
value to the type of its field, and the texts of the three exceptions. -/
structure SettingsLibrary where
  toBool : Json → Option Bool
  toInt : Json → Option Int
  decodeError : String → String
  validationError : Json → String
  notMapping : Json → String

/-- A value of the type of its field is taken as it is. -/
structure SettingsLibrary.Standard (lib : SettingsLibrary) : Prop where
  bool : ∀ b, lib.toBool (Json.bool b) = some b
  int : ∀ i, lib.toInt (Json.int i) = some i

variable (lib : SettingsLibrary)

def itemText : Json → Except Exc String
  | .scalar (.str s) => .ok s
  | v => .error ⟨.typeError, lib.notMapping v⟩

/-- `json.loads(tables_config)`, where it is a list of strings. -/
def loadsTables (text : String) : Except Exc (List String) :=
  match Json.loads text with
  | none => .error ⟨.valueError, lib.decodeError text⟩
  | some (.arr items) => items.mapM (itemText lib)
  | some v => .error ⟨.typeError, lib.notMapping v⟩

theorem mapM_itemText (tables : List String) :
    (tables.map Json.str).mapM (itemText lib) = .ok tables := by
  induction tables with
  | nil => rfl
  | cons t ts ih =>
    rw [List.map_cons, List.mapM_cons, ih]
    rfl

theorem loadsTables_dumpsTables (tables : List String) :
    loadsTables lib (dumpsTables tables) = .ok tables := by
  have hdistinct : Json.DistinctItems (tables.map Json.str) := by
    induction tables with
    | nil => trivial
    | cons t ts ih => exact ⟨trivial, ih⟩
  have hloads := Json.loads_dumps .python (.arr (tables.map Json.str)) hdistinct
  rw [loadsTables, dumpsTables, hloads]
  exact mapM_itemText lib tables

/-! ## The settings -/

namespace MigrationSettings

/-- The bounds of the two numeric fields. -/
structure Valid (s : MigrationSettings) : Prop where
  batchSize : 100 ≤ s.batchSize ∧ s.batchSize ≤ 50000
  maxRetries : s.maxRetries ≤ 10

instance (s : MigrationSettings) : Decidable s.Valid :=
  decidable_of_iff ((100 ≤ s.batchSize ∧ s.batchSize ≤ 50000) ∧ s.maxRetries ≤ 10)
    ⟨fun h => ⟨h.1, h.2⟩, fun h => ⟨h.batchSize, h.maxRetries⟩⟩

/-- The fields in the order they are declared. -/
def members (s : MigrationSettings) : List (String × Json) :=
  [("include_schema", Json.bool s.includeSchema), ("include_data", Json.bool s.includeData),
    ("batch_size", Json.int s.batchSize), ("truncate_destination", Json.bool s.truncateDestination),
    ("continue_on_error", Json.bool s.continueOnError), ("max_retries", Json.int s.maxRetries)]

/-- `settings.model_dump_json()`. -/
def dumps (s : MigrationSettings) : String := Json.dumps .compact (.obj s.members)

end MigrationSettings

/-- A field that is missing has its default. -/
def settingsField {α : Type} (members : List (String × Json)) (key : String) (default : α)
    (read : Json → Option α) : Option α :=
  match members.lookup key with
  | some v => read v
  | none => some default

/-- An integer within the bounds of its field. -/
def bounded (least most : Int) (i : Int) : Option Nat :=
  if least ≤ i ∧ i ≤ most then some i.toNat else none

/-- `MigrationSettings(**members)`; other keys are ignored. -/
def validateSettings (members : List (String × Json)) : Option MigrationSettings := do
  let includeSchema ← settingsField members "include_schema" true lib.toBool
  let includeData ← settingsField members "include_data" true lib.toBool
  let batchSize ← settingsField members "batch_size" 1000 fun v =>
    (lib.toInt v).bind (bounded 100 50000)
  let truncateDestination ← settingsField members "truncate_destination" false lib.toBool
  let continueOnError ← settingsField members "continue_on_error" false lib.toBool
  let maxRetries ← settingsField members "max_retries" 3 fun v => (lib.toInt v).bind (bounded 0 10)
  some { includeSchema, includeData, batchSize, truncateDestination, continueOnError, maxRetries }

/-- `MigrationSettings(**json.loads(settings))`. -/
def loadsSettings (text : String) : Except Exc MigrationSettings :=
  match Json.loads text with
  | none => .error ⟨.valueError, lib.decodeError text⟩
  | some (.obj members) =>
    match validateSettings lib members with
    | some s => .ok s
    | none => .error ⟨.valueError, lib.validationError (.obj members)⟩
  | some v => .error ⟨.typeError, lib.notMapping v⟩

theorem bounded_spec {least most i : Int} {n : Nat} (h : bounded least most i = some n) :
    least ≤ i ∧ i ≤ most ∧ n = i.toNat := by
  obtain ⟨hbounds, hn⟩ := Option.ite_none_right_eq_some.mp h
  exact ⟨hbounds.1, hbounds.2, (Option.some.inj hn).symm⟩

/-- A numeric field is within its bounds, also where its default is taken. -/
theorem settingsField_bounded {members : List (String × Json)} {key : String} {default n : Nat}
    {least most : Nat} (hdefault : least ≤ default ∧ default ≤ most)
    (h : settingsField members key default (fun v => (lib.toInt v).bind (bounded least most)) =
      some n) : least ≤ n ∧ n ≤ most := by
  unfold settingsField at h
  split at h
  · obtain ⟨i, -, hi⟩ := Option.bind_eq_some_iff.mp h
    obtain ⟨hlow, hhigh, hn⟩ := bounded_spec hi
    omega
  · obtain rfl := Option.some.inj h
    exact hdefault

theorem validateSettings_valid {members : List (String × Json)} {s : MigrationSettings}
    (h : validateSettings lib members = some s) : s.Valid := by
  simp only [validateSettings, Option.bind_eq_bind, Option.bind_eq_some_iff] at h
  obtain ⟨_, -, _, -, batchSize, hbatch, _, -, _, -, maxRetries, hretries, hs⟩ := h
  obtain rfl := Option.some.inj hs
  have hbounds := settingsField_bounded lib (by decide : 100 ≤ 1000 ∧ 1000 ≤ 50000) hbatch
  have hcount := settingsField_bounded lib (by decide : 0 ≤ 3 ∧ 3 ≤ 10) hretries
  exact ⟨hbounds, hcount.2⟩

/-- Whatever text is stored, the settings that are loaded from it are within their bounds. -/
theorem loadsSettings_valid {text : String} {s : MigrationSettings}
    (h : loadsSettings lib text = .ok s) : s.Valid := by
  unfold loadsSettings at h
  split at h
  · cases h
  · split at h
    · rename_i s' hs
      obtain rfl : s' = s := by injection h
      exact validateSettings_valid lib hs
    · cases h
  · cases h

theorem validateSettings_members (h : lib.Standard) {s : MigrationSettings} (hs : s.Valid) :
    validateSettings lib s.members = some s := by
  have hbatch : bounded 100 50000 s.batchSize = some s.batchSize := by
    have hbounds := hs.batchSize
    rw [bounded, if_pos (by omega), Int.toNat_natCast]
  have hretries : bounded 0 10 s.maxRetries = some s.maxRetries := by
    have hbound := hs.maxRetries
    rw [bounded, if_pos (by omega), Int.toNat_natCast]
  simp [validateSettings, settingsField, MigrationSettings.members, List.lookup_cons, h.bool, h.int,
    hbatch, hretries]

theorem loadsSettings_dumps (h : lib.Standard) {s : MigrationSettings} (hs : s.Valid) :
    loadsSettings lib s.dumps = .ok s := by
  have hdistinct : (Json.obj s.members).Distinct := by
    have hkeys : (["include_schema", "include_data", "batch_size", "truncate_destination",
        "continue_on_error", "max_retries"] : List String).Nodup := by decide
    exact ⟨hkeys, by simp [MigrationSettings.members, Json.DistinctMembers, Json.bool, Json.int,
      Json.Distinct]⟩
  have hloads := Json.loads_dumps .compact (.obj s.members) hdistinct
  have hvalid := validateSettings_members lib h hs
  rw [loadsSettings, MigrationSettings.dumps, hloads]
  simp only [hvalid]

end DataBridge
