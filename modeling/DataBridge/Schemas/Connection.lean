import DataBridge.Core.Constants
import DataBridge.Framework.FlatJson
import DataBridge.Framework.PyText

namespace DataBridge

open FlatJson (Scalar)

/-- The fields of `ConnectionCredentials`, before its validators. -/
structure ConnectionFields where
  databaseType : DatabaseType
  connectionMethod : ConnectionMethod
  databaseUrl : Option String := none
  host : Option String := none
  port : Option Int := none
  database : Option String := none
  username : Option String := none
  password : Option String := none
  filePath : Option String := none
  deriving DecidableEq, Repr

/-- `not value`, for a text field. -/
def absent (value : Option String) : Bool := value = none ∨ value = some ""

theorem exists_of_present {value : Option String} (h : absent value = false) :
    ∃ text, value = some text ∧ text ≠ "" := by
  cases value with
  | none => cases h
  | some text => exact ⟨text, rfl, fun he => by simp [absent, he] at h⟩

def validatePort (port : Option Int) : Except Exc (Option Int) :=
  match port with
  | none => .ok none
  | some v =>
    if 1 ≤ v ∧ v ≤ 65535 then .ok (some v)
    else .error ⟨.valueError, "port must be between 1 and 65535"⟩

namespace ConnectionFields

/-- The required fields that are missing, in the order they are listed. -/
def missing (c : ConnectionFields) : List String :=
  ([("host", c.host), ("database", c.database), ("username", c.username),
    ("password", c.password)].filter fun f => absent f.2).map Prod.fst

def validateFieldsForMethod (c : ConnectionFields) : Except Exc Unit :=
  match c.connectionMethod with
  | .URL =>
    if absent c.databaseUrl then
      .error ⟨.valueError, "database_url is required when connection_method is 'url'"⟩
    else .ok ()
  | .CREDENTIALS =>
    if c.databaseType = .SQLITE then
      if absent c.filePath then
        .error ⟨.valueError, "file_path is required for SQLite credential connections"⟩
      else .ok ()
    else if c.missing ≠ [] then
      .error ⟨.valueError, s!"Missing required credential fields: {PyText.commaJoin c.missing}"⟩
    else .ok ()

/-- `model_dump()`: every field in the order it is declared. -/
def modelDump (c : ConnectionFields) : List (String × Scalar) :=
  [("database_type", .str c.databaseType.value), ("connection_method", .str c.connectionMethod.value),
    ("database_url", .ofText c.databaseUrl), ("host", .ofText c.host), ("port", .ofInt c.port),
    ("database", .ofText c.database), ("username", .ofText c.username),
    ("password", .ofText c.password), ("file_path", .ofText c.filePath)]

end ConnectionFields

/-- Credentials that have passed the validators. -/
structure ConnectionCredentials extends ConnectionFields where
  validPort : validatePort port = .ok port
  validFields : toConnectionFields.validateFieldsForMethod = .ok ()

/-- A credentials dict. -/
abbrev Credentials := Dict String Scalar

/-- `_creds_to_dict`. -/
def credsToDict (conn : ConnectionCredentials) : Credentials :=
  Dict.ofList (conn.modelDump.filter fun e => e.2 ≠ .null)

/-- A dumped field is found under its name unless it is None. -/
theorem get?_credsToDict (conn : ConnectionCredentials) {key : String} {value : Scalar}
    (h : (key, value) ∈ conn.modelDump) :
    (credsToDict conn).get? key = if value = .null then none else some value := by
  have hkeys : (conn.modelDump.map Prod.fst).Nodup := by
    change (["database_type", "connection_method", "database_url", "host", "port", "database",
      "username", "password", "file_path"] : List String).Nodup
    decide
  have hfilter : ((conn.modelDump.filter fun e => e.2 ≠ .null).map Prod.fst).Nodup :=
    hkeys.sublist (List.filter_sublist.map Prod.fst)
  split
  · rename_i hnull
    rw [Dict.get?_eq_none, credsToDict, Dict.mem_keys_ofList]
    intro hmem
    obtain ⟨e, he, hkey⟩ := List.mem_map.mp hmem
    have hdump := List.mem_filter.mp he
    have hsame : e = (key, value) := List.inj_on_of_nodup_map hkeys hdump.1 h hkey
    simp [hsame, hnull] at hdump
  · rename_i hvalue
    rw [credsToDict, Dict.get?_ofList _ hfilter]
    exact List.mem_filter.mpr ⟨h, by simpa using hvalue⟩

namespace ConnectionCredentials

variable (c : ConnectionCredentials)

theorem databaseUrl_present (h : c.connectionMethod = .URL) : absent c.databaseUrl = false := by
  have hv := c.validFields
  rw [ConnectionFields.validateFieldsForMethod, h] at hv
  cases ha : absent c.databaseUrl with
  | false => rfl
  | true => simp [ha] at hv

theorem filePath_present (h : c.connectionMethod = .CREDENTIALS) (ht : c.databaseType = .SQLITE) :
    absent c.filePath = false := by
  have hv := c.validFields
  rw [ConnectionFields.validateFieldsForMethod, h] at hv
  cases ha : absent c.filePath with
  | false => rfl
  | true => simp [ht, ha] at hv

theorem fields_present (h : c.connectionMethod = .CREDENTIALS) (ht : c.databaseType ≠ .SQLITE) :
    absent c.host = false ∧ absent c.database = false ∧ absent c.username = false ∧
      absent c.password = false := by
  have hv := c.validFields
  rw [ConnectionFields.validateFieldsForMethod, h] at hv
  have hmissing : c.missing = [] := by
    by_contra hne
    simp [ht, hne] at hv
  have hall : ∀ f ∈ [("host", c.host), ("database", c.database), ("username", c.username),
      ("password", c.password)], absent f.2 = false := by
    intro f hf
    have hnot := List.filter_eq_nil_iff.mp (List.map_eq_nil_iff.mp hmissing) f hf
    simpa using hnot
  exact ⟨hall ("host", c.host) (by simp), hall ("database", c.database) (by simp),
    hall ("username", c.username) (by simp), hall ("password", c.password) (by simp)⟩

end ConnectionCredentials

end DataBridge
