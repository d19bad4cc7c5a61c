import DataBridge.Framework.ExceptList
import DataBridge.Framework.PyText
import DataBridge.Schemas.Migration
import DataBridge.Schemas.Row

namespace DataBridge

/-- `{c.name: c for c in columns}`. -/
def columnsByName (columns : List ColumnSchema) : Dict String ColumnSchema :=
  Dict.ofList (columns.map fun c => (c.name, c))

theorem mem_keys_columnsByName (columns : List ColumnSchema) (name : String) :
    name ∈ (columnsByName columns).keys ↔ name ∈ columns.map (·.name) := by
  rw [columnsByName, Dict.mem_keys_ofList, List.map_map]
  rfl

theorem columnsByName_get? (columns : List ColumnSchema) (hn : (columns.map (·.name)).Nodup)
    (name : String) (c : ColumnSchema) :
    (columnsByName columns).get? name = some c ↔ c ∈ columns ∧ c.name = name := by
  have hn' : ((columns.map fun c => (c.name, c)).map Prod.fst).Nodup := by
    simpa [List.map_map, Function.comp_def] using hn
  rw [columnsByName, Dict.get?_ofList _ hn']
  constructor
  · intro h
    obtain ⟨d, hd, he⟩ := List.mem_map.mp h
    simp only [Prod.mk.injEq] at he
    exact ⟨he.2 ▸ hd, he.2 ▸ he.1⟩
  · intro hparts
    obtain ⟨hc, rfl⟩ := hparts
    exact List.mem_map.mpr ⟨c, hc, rfl⟩

def buildColumnMapping (destCols : Dict String ColumnSchema) (destExists : Bool)
    (col : ColumnSchema) : ColumnMapping :=
  let destCol := destCols.get? col.name
  { sourceCol := col.name
    destCol := col.name
    sourceType := col.dataType
    destType := match destCol with
      | some d => d.dataType
      | none => col.dataType
    included := if destExists then destCol.isSome else true }

def buildColumnMappings (source : TableSchema) (destination : Option TableSchema) :
    List ColumnMapping :=
  let destCols := match destination with
    | some d => columnsByName d.columns
    | none => Dict.empty
  source.columns.map (buildColumnMapping destCols destination.isSome)

/-- Best-effort type coercion of one value. A `bool` is an `int` for `isinstance`. -/
def coerce (value : Value) (destType : String) : Except Exc Value :=
  if value = .none then .ok .none
  else
    let upper := PyText.before '(' (PyText.upper destType)
    if upper = "BOOLEAN" then
      match value with
      | .bool b => .ok (.bool b)
      | .int i => .ok (.bool (i ≠ 0))
      | .str s => .ok (.bool (PyText.lower s ∈ ["1", "true", "yes", "t"]))
      | v => .ok v
    else if upper ∈ ["INTEGER", "SMALLINT", "BIGINT"] then
      match value with
      | .float f => f.toInt.map .int
      | v => .ok v
    else if upper ∈ ["TEXT", "VARCHAR", "CHAR"] then
      match value with
      | .container (some dumped) => .ok (.str dumped)
      | .container none => .error ⟨.typeError, "value is not JSON serializable"⟩
      | v => .ok v
    else .ok value

/-- One source row as a destination row, over the included descriptors. -/
def transformRow (active : List ColumnMapping) (row : Row) : Except Exc Row :=
  active.foldlM (fun newRow m => do
    let value ← coerce (row.get m.sourceCol) m.destType
    pure (newRow.set m.destCol value)) Dict.empty

def activeMappings (mappings : List ColumnMapping) : List ColumnMapping :=
  mappings.filter (·.included)

/-- The descriptors that are included are those of the shared columns. -/
theorem mem_activeMappings_buildColumnMappings {src dest : TableSchema} {m : ColumnMapping} :
    m ∈ activeMappings (buildColumnMappings src (some dest)) ↔
      ∃ col ∈ src.columns, col.name ∈ dest.columns.map (·.name) ∧
        m = buildColumnMapping (columnsByName dest.columns) true col := by
  rw [activeMappings, List.mem_filter, buildColumnMappings, List.mem_map]
  constructor
  · intro h
    obtain ⟨⟨col, hcol, rfl⟩, hin⟩ := h
    have hsome : ((columnsByName dest.columns).get? col.name).isSome := hin
    rw [Dict.get?_isSome, mem_keys_columnsByName] at hsome
    exact ⟨col, hcol, hsome, rfl⟩
  · intro h
    obtain ⟨col, hcol, hshared, rfl⟩ := h
    refine ⟨⟨col, hcol, rfl⟩, ?_⟩
    change ((columnsByName dest.columns).get? col.name).isSome
    rw [Dict.get?_isSome, mem_keys_columnsByName]
    exact hshared

def applyMappings (rows : List Row) (mappings : List ColumnMapping) : Except Exc (List Row) :=
  rows.mapM (transformRow (activeMappings mappings))

/-- Reading only the selected source columns does not change the destination row. -/
theorem transformRow_project (active : List ColumnMapping) (row : Row) (cols : List String)
    (h : ∀ m ∈ active, m.sourceCol ∈ cols) :
    transformRow active (row.project cols) = transformRow active row := by
  unfold transformRow
  generalize (Dict.empty : Row) = start
  induction active generalizing start with
  | nil => rfl
  | cons m ms ih =>
    have hm : Row.get (row.project cols) m.sourceCol = row.get m.sourceCol :=
      Row.get_project row cols m.sourceCol (h m (by simp))
    have htail : ∀ m' ∈ ms, m'.sourceCol ∈ cols := fun m' hm' => h m' (by simp [hm'])
    simp only [List.foldlM_cons, hm]
    cases coerce (row.get m.sourceCol) m.destType with
    | error exc => rfl
    | ok value => exact ih htail (start.set m.destCol value)

private theorem foldlM_keys (row : Row) (active : List ColumnMapping) (start new : Row)
    (hn : (start.keys ++ active.map (·.destCol)).Nodup)
    (h : active.foldlM (fun (newRow : Row) m => do
      let value ← coerce (row.get m.sourceCol) m.destType
      pure (newRow.set m.destCol value)) start = .ok new) :
    new.keys = start.keys ++ active.map (·.destCol) := by
  induction active generalizing start with
  | nil =>
    have he : start = new := ExceptList.pure_ok_iff.mp h
    simp [he]
  | cons m ms ih =>
    rw [List.foldlM_cons] at h
    obtain ⟨next, hnext, hrest⟩ := ExceptList.bind_ok_iff.mp h
    obtain ⟨value, -, hset⟩ := ExceptList.bind_ok_iff.mp hnext
    have hset' := ExceptList.pure_ok_iff.mp hset
    subst hset'
    have hm : m.destCol ∉ start.keys := by
      intro hmem
      exact List.disjoint_of_nodup_append hn hmem (by simp)
    have hkeys : (start.set m.destCol value).keys = start.keys ++ [m.destCol] := by
      rw [Dict.keys_set, if_neg hm]
    have hrec := ih (start.set m.destCol value) (by rw [hkeys]; simpa using hn) hrest
    rw [hrec, hkeys]
    simp

/-- Every destination row has the destination columns of the included descriptors, in order. -/
theorem transformRow_keys {active : List ColumnMapping} {row new : Row}
    (hn : (active.map (·.destCol)).Nodup) (h : transformRow active row = .ok new) :
    new.keys = active.map (·.destCol) := by
  simpa using foldlM_keys row active Dict.empty new (by simpa using hn) h

private theorem foldlM_sameKeys (row row' : Row) (active : List ColumnMapping)
    (start start' new new' : Row) (hstart : start.keys = start'.keys)
    (h : active.foldlM (fun (newRow : Row) m => do
      let value ← coerce (row.get m.sourceCol) m.destType
      pure (newRow.set m.destCol value)) start = .ok new)
    (h' : active.foldlM (fun (newRow : Row) m => do
      let value ← coerce (row'.get m.sourceCol) m.destType
      pure (newRow.set m.destCol value)) start' = .ok new') :
    new.keys = new'.keys := by
  induction active generalizing start start' with
  | nil =>
    have he : start = new := ExceptList.pure_ok_iff.mp h
    have he' : start' = new' := ExceptList.pure_ok_iff.mp h'
    rw [← he, ← he', hstart]
  | cons m ms ih =>
    rw [List.foldlM_cons] at h h'
    obtain ⟨next, hnext, hrest⟩ := ExceptList.bind_ok_iff.mp h
    obtain ⟨next', hnext', hrest'⟩ := ExceptList.bind_ok_iff.mp h'
    obtain ⟨value, -, hset⟩ := ExceptList.bind_ok_iff.mp hnext
    obtain ⟨value', -, hset'⟩ := ExceptList.bind_ok_iff.mp hnext'
    have hv := ExceptList.pure_ok_iff.mp hset
    have hv' := ExceptList.pure_ok_iff.mp hset'
    subst hv hv'
    have hkeys : (start.set m.destCol value).keys = (start'.set m.destCol value').keys := by
      rw [Dict.keys_set, Dict.keys_set, hstart]
    exact ih _ _ hkeys hrest hrest'

/-- All rows of a transformed batch have the same columns. -/
theorem applyMappings_keys {rows target : List Row} {mappings : List ColumnMapping}
    (h : applyMappings rows mappings = .ok target) : ∃ cols, ∀ r ∈ target, r.keys = cols := by
  cases target with
  | nil => exact ⟨[], by simp⟩
  | cons first rest =>
    refine ⟨first.keys, ?_⟩
    intro r hr
    obtain ⟨row, -, hrun⟩ := ExceptList.mapM_source h hr
    obtain ⟨row', -, hrun'⟩ := ExceptList.mapM_source h (List.mem_cons_self (a := first))
    exact foldlM_sameKeys row row' _ _ _ r first rfl hrun hrun'

private theorem foldlM_get? (row : Row) (active : List ColumnMapping) (start new : Row)
    (hn : (active.map (·.destCol)).Nodup)
    (h : active.foldlM (fun (newRow : Row) m => do
      let value ← coerce (row.get m.sourceCol) m.destType
      pure (newRow.set m.destCol value)) start = .ok new) :
    (∀ m ∈ active, ∃ value, coerce (row.get m.sourceCol) m.destType = .ok value ∧
      new.get? m.destCol = some value) ∧
    ∀ col, col ∉ active.map (·.destCol) → new.get? col = start.get? col := by
  induction active generalizing start with
  | nil =>
    have he : start = new := ExceptList.pure_ok_iff.mp h
    exact ⟨by simp, fun col _ => by rw [he]⟩
  | cons m ms ih =>
    rw [List.foldlM_cons] at h
    obtain ⟨next, hnext, hrest⟩ := ExceptList.bind_ok_iff.mp h
    obtain ⟨value, hvalue, hset⟩ := ExceptList.bind_ok_iff.mp hnext
    have hset' := ExceptList.pure_ok_iff.mp hset
    subst hset'
    rw [List.map_cons, List.nodup_cons] at hn
    obtain ⟨hmem, hother⟩ := ih (start.set m.destCol value) hn.2 hrest
    constructor
    · intro m' hm'
      rcases List.mem_cons.mp hm' with heq | htail
      · subst heq
        refine ⟨value, hvalue, ?_⟩
        rw [hother m'.destCol hn.1, Dict.get?_set, if_pos rfl]
      · exact hmem m' htail
    · intro col hcol
      rw [List.map_cons, List.mem_cons, not_or] at hcol
      rw [hother col hcol.2, Dict.get?_set, if_neg hcol.1]

/-- Every included descriptor's column holds the coerced source value; no other column is there. -/
theorem transformRow_get? {active : List ColumnMapping} {row new : Row}
    (hn : (active.map (·.destCol)).Nodup) (h : transformRow active row = .ok new) :
    (∀ m ∈ active, ∃ value, coerce (row.get m.sourceCol) m.destType = .ok value ∧
      new.get? m.destCol = some value) ∧
    ∀ col, col ∉ active.map (·.destCol) → new.get? col = none := by
  simpa using foldlM_get? row active Dict.empty new hn h

/-- Where descriptors of one destination column agree, the column holds its coerced value, however
often it is described. -/
theorem transformRow_get?_of_same {active : List ColumnMapping} {row new : Row}
    (hsame : ∀ m ∈ active, ∀ m' ∈ active, m.destCol = m'.destCol →
      m.sourceCol = m'.sourceCol ∧ m.destType = m'.destType)
    (h : transformRow active row = .ok new) {m : ColumnMapping} (hm : m ∈ active) :
    ∃ value, coerce (row.get m.sourceCol) m.destType = .ok value ∧
      new.get? m.destCol = some value := by
  have hkept : ∀ (ms : List ColumnMapping) (start : Row), (∀ m' ∈ ms, m' ∈ active) →
      ms.foldlM (fun (newRow : Row) m => do
        let value ← coerce (row.get m.sourceCol) m.destType
        pure (newRow.set m.destCol value)) start = .ok new →
      (∃ m' ∈ ms, m'.destCol = m.destCol) ∨ (∃ value,
        coerce (row.get m.sourceCol) m.destType = .ok value ∧
          start.get? m.destCol = some value) →
      ∃ value, coerce (row.get m.sourceCol) m.destType = .ok value ∧
        new.get? m.destCol = some value := by
    intro ms
    induction ms with
    | nil =>
      intro start _ hfold hfound
      have he : start = new := ExceptList.pure_ok_iff.mp hfold
      subst he
      simpa using hfound
    | cons m₁ ms ih =>
      intro start hmem hfold hfound
      rw [List.foldlM_cons] at hfold
      obtain ⟨next, hnext, hrest⟩ := ExceptList.bind_ok_iff.mp hfold
      obtain ⟨value, hvalue, hset⟩ := ExceptList.bind_ok_iff.mp hnext
      have hset' := ExceptList.pure_ok_iff.mp hset
      subst hset'
      apply ih (start.set m₁.destCol value) (fun m' hm' => hmem m' (by simp [hm'])) hrest
      by_cases hcol : m₁.destCol = m.destCol
      · obtain ⟨hsource, htype⟩ := hsame m₁ (hmem m₁ (by simp)) m hm hcol
        rw [hsource, htype] at hvalue
        exact Or.inr ⟨value, hvalue, by rw [hcol, Dict.get?_set, if_pos rfl]⟩
      · rcases hfound with ⟨m', hm', hname⟩ | ⟨old, hold, hget⟩
        · rcases List.mem_cons.mp hm' with heq | htail
          · exact absurd (heq ▸ hname) hcol
          · exact Or.inl ⟨m', htail, hname⟩
        · exact Or.inr ⟨old, hold, by rw [Dict.get?_set, if_neg (Ne.symm hcol), hget]⟩
  exact hkept active Dict.empty (fun _ h => h) h (Or.inl ⟨m, hm, rfl⟩)

theorem coerce_none (destType : String) : coerce .none destType = .ok .none := rfl

/-- Coercion turns no value into NULL. -/
theorem coerce_ne_none {value v : Value} {destType : String} (hne : value ≠ .none)
    (h : coerce value destType = .ok v) : v ≠ .none := by
  unfold coerce at h
  rw [if_neg hne] at h
  dsimp only at h
  split at h
  · split at h <;> cases h <;> simp_all
  · split at h
    · split at h
      · rename_i f
        cases hf : f.toInt with
        | error exc =>
          rw [hf] at h
          cases h
        | ok i =>
          rw [hf] at h
          cases h
          simp
      · cases h
        exact hne
    · split at h
      · split at h <;> cases h <;> simp_all
      · cases h
        exact hne

/-- A text is coerced without an error to any type. -/
theorem coerce_str (s destType : String) : ∃ v, coerce (.str s) destType = .ok v := by
  unfold coerce
  rw [if_neg (by simp)]
  dsimp only
  split
  · exact ⟨_, rfl⟩
  · split
    · exact ⟨_, rfl⟩
    · split
      · exact ⟨_, rfl⟩
      · exact ⟨_, rfl⟩

/-- A row whose values all coerce has a destination row. -/
theorem transformRow_exists {active : List ColumnMapping} {row : Row}
    (h : ∀ m ∈ active, ∃ v, coerce (row.get m.sourceCol) m.destType = .ok v) :
    ∃ new, transformRow active row = .ok new := by
  rw [transformRow]
  generalize (Dict.empty : Row) = start
  induction active generalizing start with
  | nil => exact ⟨start, rfl⟩
  | cons m ms ih =>
    obtain ⟨value, hv⟩ := h m (by simp)
    obtain ⟨new, hnew⟩ := ih (fun m' hm' => h m' (by simp [hm'])) (start.set m.destCol value)
    refine ⟨new, ?_⟩
    rw [List.foldlM_cons, hv]
    exact hnew

/-- A row that has a destination row has only values that coerce. -/
theorem coerce_of_transformRow {active : List ColumnMapping} {row new : Row}
    (h : transformRow active row = .ok new) {m : ColumnMapping} (hm : m ∈ active) :
    ∃ v, coerce (row.get m.sourceCol) m.destType = .ok v := by
  obtain ⟨_, _, hstep⟩ := ExceptList.foldlM_ok_mem h hm
  obtain ⟨v, hv, -⟩ := ExceptList.bind_ok_iff.mp hstep
  exact ⟨v, hv⟩

/-- What `_coerce` raises on: a float that is no number for an integer column, and a dict or list
that cannot be dumped for a text column. -/
def CoercionRaises (value : Value) (destType : String) : Prop :=
  let upper := PyText.before '(' (PyText.upper destType)
  (upper ∈ ["INTEGER", "SMALLINT", "BIGINT"] ∧
    (value = .float .nan ∨ ∃ negative, value = .float (.inf negative))) ∨
  (upper ∈ ["TEXT", "VARCHAR", "CHAR"] ∧ value = .container none)

theorem coerce_ok_iff (value : Value) (destType : String) :
    (∃ v, coerce value destType = .ok v) ↔ ¬ CoercionRaises value destType := by
  unfold coerce CoercionRaises
  generalize PyText.before '(' (PyText.upper destType) = upper
  dsimp only
  by_cases hbool : upper = "BOOLEAN"
  · subst hbool
    cases value <;> simp
  by_cases hint : upper ∈ ["INTEGER", "SMALLINT", "BIGINT"]
  · have htext : upper ∉ ["TEXT", "VARCHAR", "CHAR"] := by
      rcases List.mem_cons.mp hint with h | h
      · simp [h]
      · rcases List.mem_cons.mp h with h | h
        · simp [h]
        · simp [List.mem_singleton.mp h]
    rw [if_neg hbool, if_pos hint]
    cases value with
    | float f => cases f <;> simp [hint, htext, PyFloat.toInt, Except.map]
    | _ => simp [htext]
  by_cases htext : upper ∈ ["TEXT", "VARCHAR", "CHAR"]
  · rw [if_neg hbool, if_neg hint, if_pos htext]
    cases value with
    | container dumps => cases dumps <;> simp [htext]
    | _ => simp [hint]
  · rw [if_neg hbool, if_neg hint, if_neg htext]
    split <;> simp [hint, htext]

example : coerce (.int 1) "boolean" = .ok (.bool true) := by decide
example : coerce (.float .nan) "BIGINT" =
    .error ⟨.valueError, "cannot convert float NaN to integer"⟩ := by decide

end DataBridge
