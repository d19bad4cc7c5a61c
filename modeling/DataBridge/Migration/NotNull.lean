import DataBridge.Migration.Validator

namespace DataBridge

/-- A row read from the source table: every column has a value, and the table's own NOT NULL
columns have one that is not NULL. -/
structure SourceRow (source : TableSchema) (row : Row) : Prop where
  keys : row.keys = source.columns.map (·.name)
  notNull : ∀ c ∈ source.columns, c.isNullable = false → row.get c.name ≠ .none

/-- The value of column `c` once `new` is inserted: an absent column takes its default or NULL. -/
def storedValue (evalDefault : String → Value) (new : Row) (c : ColumnSchema) : Value :=
  (new.get? c.name).getD ((c.default.map evalDefault).getD .none)

/-- No NOT NULL column of the destination gets NULL from `new`. -/
def KeepsNotNull (evalDefault : String → Value) (destination : TableSchema) (new : Row) : Prop :=
  ∀ c ∈ destination.columns, c.isNullable = false → storedValue evalDefault new c ≠ .none

/-- Where both tables have a column, it is nullable in the destination if it is in the source. -/
def SharedNullability (source destination : TableSchema) : Prop :=
  ∀ c ∈ source.columns, ∀ d ∈ destination.columns, c.name = d.name →
    c.isNullable = true → d.isNullable = true

/-- Defaults of the NOT NULL columns that only the destination has are not NULL. -/
def DefaultsNotNull (evalDefault : String → Value) (source destination : TableSchema) : Prop :=
  ∀ d ∈ destination.columns, d.isNullable = false → d.name ∉ source.columns.map (·.name) →
    ∀ expr, d.default = some expr → evalDefault expr ≠ .none

section mappings

variable (source destination : TableSchema)

theorem buildColumnMappings_destCol :
    (buildColumnMappings source (some destination)).map (·.destCol) =
      source.columns.map (·.name) := by
  rw [buildColumnMappings, List.map_map]
  rfl

theorem activeMappings_nodup (hs : (source.columns.map (·.name)).Nodup) :
    ((activeMappings (buildColumnMappings source (some destination))).map (·.destCol)).Nodup := by
  have hall := buildColumnMappings_destCol source destination
  have hsub := (List.filter_sublist (l := buildColumnMappings source (some destination))
    (p := (·.included))).map (·.destCol)
  rw [hall] at hsub
  exact hs.sublist hsub

end mappings

section validated

variable {source destination : TableSchema} {warnings : List String}

/-- An accepted pair has a default for every NOT NULL column that only the destination has. -/
theorem accepted_default (hd : (destination.columns.map (·.name)).Nodup)
    (h : validateSchemaCompatibility source (some destination) = .ok warnings)
    {d : ColumnSchema} (hmem : d ∈ destination.columns) (hnot : d.isNullable = false)
    (honly : d.name ∉ source.columns.map (·.name)) : ∃ expr, d.default = some expr := by
  rw [validateSchemaCompatibility] at h
  by_cases hempty : source.columns = []
  · rw [if_pos hempty] at h
    cases h
  rw [if_neg hempty] at h
  obtain ⟨shared, -, hfold⟩ := ExceptList.bind_ok_iff.mp h
  have hget : (columnsByName destination.columns).get? d.name = some d :=
    (columnsByName_get? destination.columns hd d.name d).mpr ⟨hmem, rfl⟩
  have hentry := (Dict.get?_eq_some_iff _ _ _).mp hget
  obtain ⟨acc, acc', hcheck⟩ := ExceptList.foldlM_ok_mem hfold hentry
  have hkey : d.name ∉ (columnsByName source.columns).keys := by
    rw [mem_keys_columnsByName]
    exact honly
  simp only [checkDestColumn, if_neg hkey, hnot] at hcheck
  cases hdef : d.default with
  | none => simp [hdef] at hcheck
  | some expr => exact ⟨expr, rfl⟩

variable (hs : (source.columns.map (·.name)).Nodup) {row new : Row}
  (h : transformRow (activeMappings (buildColumnMappings source (some destination))) row = .ok new)
include hs h

/-- A shared column holds the coerced value of the source column. -/
theorem storedValue_shared (evalDefault : String → Value) {c d : ColumnSchema}
    (hc : c ∈ source.columns) (hmem : d ∈ destination.columns) (hname : c.name = d.name) :
    ∃ destType, coerce (row.get d.name) destType = .ok (storedValue evalDefault new d) := by
  have hnodup := activeMappings_nodup source destination hs
  have hin : c.name ∈ destination.columns.map (·.name) := by
    rw [hname]
    exact List.mem_map_of_mem hmem
  have hactive := mem_activeMappings_buildColumnMappings.mpr ⟨c, hc, hin, rfl⟩
  obtain ⟨value, hvalue, hget⟩ := (transformRow_get? hnodup h).1 _ hactive
  have hstored : storedValue evalDefault new d = value := by
    have hget' : new.get? d.name = some value := by
      rw [← hname]
      exact hget
    rw [storedValue, hget', Option.getD_some]
  rw [hstored, ← hname]
  exact ⟨_, hvalue⟩

/-- A column that only the destination has takes its default. -/
theorem storedValue_destOnly (evalDefault : String → Value) {d : ColumnSchema}
    (honly : d.name ∉ source.columns.map (·.name)) :
    storedValue evalDefault new d = (d.default.map evalDefault).getD .none := by
  have hnodup := activeMappings_nodup source destination hs
  have habsent : d.name ∉
      (activeMappings (buildColumnMappings source (some destination))).map (·.destCol) := by
    intro hin
    obtain ⟨m, hm, he⟩ := List.mem_map.mp hin
    obtain ⟨c, hc, -, hmc⟩ := mem_activeMappings_buildColumnMappings.mp hm
    subst hmc
    exact honly (List.mem_map.mpr ⟨c, hc, he⟩)
  rw [storedValue, (transformRow_get? hnodup h).2 d.name habsent, Option.getD_none]

end validated

/-- The source row that is NULL in the column `hole` and an empty text everywhere else. -/
def rowWithHole (source : TableSchema) (hole : String) : Row :=
  Dict.ofList (source.columns.map fun c => (c.name, if c.name = hole then .none else .str ""))

section rowWithHole

variable {source : TableSchema} (hs : (source.columns.map (·.name)).Nodup) (hole : String)
include hs

theorem rowWithHole_get {c : ColumnSchema} (hc : c ∈ source.columns) :
    (rowWithHole source hole).get c.name = if c.name = hole then .none else .str "" := by
  have hfst : ((source.columns.map fun c =>
      (c.name, if c.name = hole then Value.none else .str "")).map Prod.fst).Nodup := by
    rw [List.map_map]
    exact hs
  have hget : (rowWithHole source hole).get? c.name =
      some (if c.name = hole then .none else .str "") :=
    (Dict.get?_ofList _ hfst _ _).mpr (List.mem_map.mpr ⟨c, hc, rfl⟩)
  rw [Row.get, hget, Option.getD_some]

theorem rowWithHole_sourceRow
    (hnull : ∀ c ∈ source.columns, c.name = hole → c.isNullable = true) :
    SourceRow source (rowWithHole source hole) := by
  constructor
  · have hfst : ((source.columns.map fun c =>
        (c.name, if c.name = hole then Value.none else .str "")).map Prod.fst).Nodup := by
      rw [List.map_map]
      exact hs
    rw [Dict.keys, rowWithHole, Dict.entries_ofList _ hfst, List.map_map]
    rfl
  · intro c hc hnot
    rw [rowWithHole_get hs hole hc]
    by_cases hne : c.name = hole
    · have hyes := hnull c hc hne
      rw [hnot] at hyes
      cases hyes
    · rw [if_neg hne]
      simp

theorem rowWithHole_transforms (destination : TableSchema) : ∃ new, transformRow
    (activeMappings (buildColumnMappings source (some destination))) (rowWithHole source hole) =
      .ok new := by
  apply transformRow_exists
  intro m hm
  obtain ⟨c, hc, -, he⟩ := mem_activeMappings_buildColumnMappings.mp hm
  subst he
  change ∃ v, coerce ((rowWithHole source hole).get c.name) _ = .ok v
  rw [rowWithHole_get hs hole hc]
  by_cases hne : c.name = hole
  · rw [if_pos hne]
    exact ⟨.none, coerce_none _⟩
  · rw [if_neg hne]
    exact coerce_str "" _

end rowWithHole

/-- A single row goes through `applyMappings` as through `transformRow`. -/
theorem applyMappings_singleton {row new : Row} {mappings : List ColumnMapping}
    (h : transformRow (activeMappings mappings) row = .ok new) :
    applyMappings [row] mappings = .ok [new] := by
  rw [applyMappings, List.mapM_cons, h]
  rfl

section accepted

variable (evalDefault : String → Value) {source destination : TableSchema}
  (hs : (source.columns.map (·.name)).Nodup)
include hs

theorem keepsNotNull_of_schemas {warnings : List String}
    (hd : (destination.columns.map (·.name)).Nodup)
    (h : validateSchemaCompatibility source (some destination) = .ok warnings)
    (hshared : SharedNullability source destination)
    (hdefault : DefaultsNotNull evalDefault source destination) {row new : Row}
    (hrow : SourceRow source row)
    (hnew : transformRow (activeMappings (buildColumnMappings source (some destination))) row =
      .ok new) : KeepsNotNull evalDefault destination new := by
  intro d hmem hnot
  by_cases hin : d.name ∈ source.columns.map (·.name)
  · obtain ⟨c, hc, hname⟩ := List.mem_map.mp hin
    obtain ⟨destType, hco⟩ := storedValue_shared hs hnew evalDefault hc hmem hname
    have hsrc : c.isNullable = false := by
      by_contra hyes
      have hdest := hshared c hc d hmem hname (by simpa using hyes)
      rw [hnot] at hdest
      cases hdest
    have hvalue := hrow.notNull c hc hsrc
    rw [hname] at hvalue
    exact coerce_ne_none hvalue hco
  · obtain ⟨expr, hexpr⟩ := accepted_default hd h hmem hnot hin
    have hne := hdefault d hmem hnot hin expr hexpr
    rw [storedValue_destOnly hs hnew evalDefault hin, hexpr]
    exact hne

/-- An accepted pair loses no row to NOT NULL exactly when no shared column is nullable in the
source only and the defaults of the unmatched NOT NULL columns are not NULL. -/
theorem accepted_keepsNotNull_iff {warnings : List String}
    (hd : (destination.columns.map (·.name)).Nodup)
    (h : validateSchemaCompatibility source (some destination) = .ok warnings) :
    (∀ rows out, (∀ row ∈ rows, SourceRow source row) →
      applyMappings rows (buildColumnMappings source (some destination)) = .ok out →
      ∀ new ∈ out, KeepsNotNull evalDefault destination new) ↔
    SharedNullability source destination ∧ DefaultsNotNull evalDefault source destination := by
  constructor
  · intro hkeep
    have hrow : ∀ hole, (∀ c ∈ source.columns, c.name = hole → c.isNullable = true) →
        ∃ new, transformRow (activeMappings (buildColumnMappings source (some destination)))
          (rowWithHole source hole) = .ok new ∧ KeepsNotNull evalDefault destination new := by
      intro hole hnull
      obtain ⟨new, hnew⟩ := rowWithHole_transforms hs hole destination
      refine ⟨new, hnew, ?_⟩
      refine hkeep [rowWithHole source hole] [new] ?_ (applyMappings_singleton hnew) new (by simp)
      intro row hmem
      rw [List.mem_singleton.mp hmem]
      exact rowWithHole_sourceRow hs hole hnull
    constructor
    · -- a NULL in the shared column is stored as it is
      intro c hc d hmem hname hyes
      obtain ⟨new, hnew, hnotNull⟩ := hrow c.name (by
        intro c' hc' he
        rw [List.inj_on_of_nodup_map hs hc' hc he]
        exact hyes)
      by_contra hno
      obtain ⟨destType, hco⟩ := storedValue_shared hs hnew evalDefault hc hmem hname
      rw [← hname, rowWithHole_get hs c.name hc, if_pos rfl, coerce_none] at hco
      exact hnotNull d hmem (by simpa using hno) (Except.ok.inj hco).symm
    · intro d hmem hnot honly expr hexpr hnull
      obtain ⟨new, hnew, hnotNull⟩ := hrow d.name (by
        intro c hc he
        exact absurd (List.mem_map.mpr ⟨c, hc, he⟩) honly)
      apply hnotNull d hmem hnot
      rw [storedValue_destOnly hs hnew evalDefault honly, hexpr]
      exact hnull
  · intro hcond rows out hrows hout new hnew
    obtain ⟨row, hmem, hrun⟩ := ExceptList.mapM_source hout hnew
    exact keepsNotNull_of_schemas evalDefault hs hd h hcond.1 hcond.2 (hrows row hmem) hrun

end accepted

/-- A nullable note in the source and a NOT NULL one in the destination. -/
def nullableNote : TableSchema :=
  { name := "notes"
    columns := [{ name := "id", dataType := "INTEGER", isNullable := false, isPrimaryKey := true },
      { name := "note", dataType := "TEXT" }] }

def requiredNote : TableSchema :=
  { name := "notes"
    columns := [{ name := "id", dataType := "INTEGER", isNullable := false, isPrimaryKey := true },
      { name := "note", dataType := "TEXT", isNullable := false }] }

theorem accepted_keepsNotNull_same :
    validateSchemaCompatibility requiredNote (some requiredNote) = .ok [] ∧
    applyMappings [Dict.ofList [("id", .int 1), ("note", .str "x")]]
      (buildColumnMappings requiredNote (some requiredNote)) =
        .ok [Dict.ofList [("id", .int 1), ("note", .str "x")]] ∧
    KeepsNotNull .str requiredNote (Dict.ofList [("id", .int 1), ("note", .str "x")]) := by
  have hs : (requiredNote.columns.map (·.name)).Nodup := by decide
  have h : validateSchemaCompatibility requiredNote (some requiredNote) = .ok [] := by decide
  have hout : applyMappings [Dict.ofList [("id", .int 1), ("note", .str "x")]]
      (buildColumnMappings requiredNote (some requiredNote)) =
        .ok [Dict.ofList [("id", .int 1), ("note", .str "x")]] := by decide
  have hshared : SharedNullability requiredNote requiredNote := by
    rw [SharedNullability]
    decide
  have hdefault : DefaultsNotNull .str requiredNote requiredNote := by
    intro d hmem _ honly
    exact absurd (List.mem_map_of_mem hmem) honly
  have hkeep := (accepted_keepsNotNull_iff .str hs hs h).mpr ⟨hshared, hdefault⟩
  refine ⟨h, hout, hkeep _ _ ?_ hout _ (List.mem_singleton_self _)⟩
  intro row hmem
  rw [List.mem_singleton.mp hmem]
  exact ⟨by decide, by decide⟩

/-- The pair is accepted without a warning, and a row without a note is NULL in the NOT NULL
column of the destination. -/
theorem nullableNote_lost :
    validateSchemaCompatibility nullableNote (some requiredNote) = .ok [] ∧
    ∃ row new, SourceRow nullableNote row ∧
      applyMappings [row] (buildColumnMappings nullableNote (some requiredNote)) = .ok [new] ∧
      ∀ evalDefault, ¬ KeepsNotNull evalDefault requiredNote new := by
  refine ⟨by decide, Dict.ofList [("id", .int 1), ("note", .none)],
    Dict.ofList [("id", .int 1), ("note", .none)], ⟨by decide, by decide⟩, by decide, ?_⟩
  intro evalDefault hkeep
  exact hkeep { name := "note", dataType := "TEXT", isNullable := false } (by decide) rfl rfl

end DataBridge
