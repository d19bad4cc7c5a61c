import DataBridge.Migration.Compatibility

namespace DataBridge

/-- What stands between a beginning and an end of the text. -/
def between? (first last text : String) : Option String :=
  ((text.toList.dropPrefix? first.toList).bind (·.dropSuffix? last.toList)).map String.ofList

theorem between?_append (first middle last : String) :
    between? first last (first ++ middle ++ last) = some middle := by
  have hprefix : (first ++ middle ++ last).toList.dropPrefix? first.toList =
      some (middle.toList ++ last.toList) := by
    rw [List.dropPrefix?_eq_some_iff]
    exact ⟨first.toList, by simp, BEq.rfl⟩
  have hsuffix : (middle.toList ++ last.toList).dropSuffix? last.toList = some middle.toList := by
    rw [List.dropSuffix?_eq_some_iff]
    exact ⟨last.toList, rfl, BEq.rfl⟩
  rw [between?, hprefix, Option.bind_some, hsuffix]
  simp

/-- A text that ends in another way is not read. -/
theorem between?_eq_none {first last text : String} (tail tail' : List Char)
    (hlast : tail <:+ last.toList) (htext : tail' <:+ text.toList)
    (hlength : tail.length = tail'.length) (hne : tail ≠ tail') : between? first last text = none := by
  rw [between?, Option.map_eq_none_iff, Option.bind_eq_none_iff]
  intro rest hrest
  obtain ⟨_, htext', -⟩ := List.dropPrefix?_eq_some_iff.mp hrest
  rw [Option.eq_none_iff_forall_ne_some]
  intro middle hmiddle
  obtain ⟨last', hrest', hsame⟩ := List.dropSuffix?_eq_some_iff.mp hmiddle
  have htail : tail <:+ text.toList := by
    rw [htext', hrest', eq_of_beq hsame]
    exact hlast.trans ((List.suffix_append _ _).trans (List.suffix_append _ _))
  have hsuffix := List.suffix_of_suffix_length_le htail htext hlength.le
  exact hne (hsuffix.eq_of_length hlength)

/-- The column of which a warning says that it will be skipped. -/
def skippedColumn? (source : TableSchema) (warning : String) : Option String :=
  between? "Column '" (s!"' in source table '{source.name}' " ++
    "does not exist in destination — it will be skipped.") warning

/-- The column of which a warning says that it has no matching source column. -/
def unmatchedColumn? (destination : TableSchema) (warning : String) : Option String :=
  between? "Column '" (s!"' in destination table '{destination.name}' " ++
    "has no matching source column — it will receive NULL / default values.") warning

section texts

variable (source destination : TableSchema) (col dcol : ColumnSchema) (name : String)

theorem skippedColumn?_skipped :
    skippedColumn? source (skippedWarning source col) = some col.name := by
  have htext : skippedWarning source col = "Column '" ++ col.name ++
      (s!"' in source table '{source.name}' " ++
        "does not exist in destination — it will be skipped.") := by
    simp only [skippedWarning, String.append_assoc]
    rfl
  rw [skippedColumn?, htext]
  exact between?_append _ _ _

theorem unmatchedColumn?_unmatched :
    unmatchedColumn? destination (unmatchedWarning destination name) = some name := by
  have htext : unmatchedWarning destination name = "Column '" ++ name ++
      (s!"' in destination table '{destination.name}' " ++
        "has no matching source column — it will receive NULL / default values.") := by
    simp only [unmatchedWarning, String.append_assoc]
    rfl
  rw [unmatchedColumn?, htext]
  exact between?_append _ _ _

theorem suffix_of_append {tail : List Char} {text : String} (h : tail <:+ text.toList)
    (first : String) : tail <:+ (first ++ text).toList := by
  rw [String.toList_append]
  exact h.trans (List.suffix_append _ _)

theorem skippedColumn?_length : skippedColumn? source (lengthWarning col dcol) = none :=
  between?_eq_none "ped.".toList "ted.".toList (suffix_of_append (by decide) _)
    (suffix_of_append (suffix_of_append (by decide) _) _) rfl (by decide)

theorem skippedColumn?_unmatched :
    skippedColumn? source (unmatchedWarning destination name) = none :=
  between?_eq_none "ped.".toList "ues.".toList (suffix_of_append (by decide) _)
    (suffix_of_append (by decide) _) rfl (by decide)

theorem unmatchedColumn?_skipped :
    unmatchedColumn? destination (skippedWarning source col) = none :=
  between?_eq_none "ues.".toList "ped.".toList (suffix_of_append (by decide) _)
    (suffix_of_append (by decide) _) rfl (by decide)

theorem unmatchedColumn?_length : unmatchedColumn? destination (lengthWarning col dcol) = none :=
  between?_eq_none "ues.".toList "ted.".toList (suffix_of_append (by decide) _)
    (suffix_of_append (suffix_of_append (by decide) _) _) rfl (by decide)

end texts

/-- The descriptors of the columns that both tables have, in the order of the source, with the type
of the destination; all columns of the source where there is no destination. -/
def commonMappings (source : TableSchema) : Option TableSchema → List ColumnMapping
  | none => source.columns.map fun col =>
    { sourceCol := col.name, destCol := col.name, sourceType := col.dataType
      destType := col.dataType, included := true }
  | some dest => source.columns.filterMap fun col =>
    (dest.columns.find? (·.name = col.name)).map fun dcol =>
      { sourceCol := col.name, destCol := col.name, sourceType := col.dataType
        destType := dcol.dataType, included := true }

section pairs

variable {source dest : TableSchema}

/-- A lookup by name finds the first column of that name, where there is one of it. -/
theorem columnsByName_get?_eq_find? {columns : List ColumnSchema}
    (hn : (columns.map (·.name)).Nodup) (name : String) :
    (columnsByName columns).get? name = columns.find? (·.name = name) := by
  apply Option.ext
  intro col
  rw [columnsByName_get? columns hn]
  constructor
  · intro h
    obtain ⟨hcol, hname⟩ := h
    obtain ⟨found, hfound⟩ : ∃ found, columns.find? (·.name = name) = some found :=
      Option.isSome_iff_exists.mp (List.find?_isSome.mpr ⟨col, hcol, by simpa using hname⟩)
    have hsame : found = col := List.inj_on_of_nodup_map hn (List.mem_of_find?_eq_some hfound) hcol
      ((by simpa using List.find?_some hfound : found.name = name).trans hname.symm)
    rw [hfound, hsame]
  · intro h
    exact ⟨List.mem_of_find?_eq_some h, by simpa using List.find?_some h⟩

/-- The columns with a warning that they will be skipped are those without a destination column. -/
theorem skipped_sourceWarnings (destCols : Dict String ColumnSchema) (col : ColumnSchema) :
    (sourceWarnings source destCols col).filterMap (skippedColumn? source) =
      if (destCols.get? col.name).isSome then [] else [col.name] := by
  rw [sourceWarnings]
  cases destCols.get? col.name with
  | none => simp [skippedColumn?_skipped]
  | some dcol =>
    by_cases hshort : Shortens col dcol
    · simp [hshort, skippedColumn?_length]
    · simp [hshort]

theorem flatMap_unless {α β : Type} (p : α → Bool) (f : α → β) (xs : List α) :
    (xs.flatMap fun x => if p x then [] else [f x]) = (xs.filter fun x => !p x).map f := by
  induction xs with
  | nil => rfl
  | cons x xs ih =>
    rw [List.flatMap_cons, List.filter_cons, ih]
    cases p x <;> simp

theorem skipped_destWarnings (dest : TableSchema) (sourceCols : Dict String ColumnSchema)
    (entry : String × ColumnSchema) :
    (destWarnings dest sourceCols entry).filterMap (skippedColumn? source) = [] := by
  rw [destWarnings]
  split
  · rfl
  · simp [skippedColumn?_unmatched]

theorem skipped_pairWarnings (source dest : TableSchema) :
    (pairWarnings source dest).filterMap (skippedColumn? source) =
      ((buildColumnMappings source (some dest)).filter (!·.included)).map (·.sourceCol) := by
  have hsource := flatMap_unless
    (fun col => ((columnsByName dest.columns).get? col.name).isSome) (·.name) source.columns
  rw [pairWarnings, List.filterMap_append, List.filterMap_flatMap, List.filterMap_flatMap,
    List.flatMap_eq_nil_iff.mpr fun entry _ => skipped_destWarnings dest _ entry, List.append_nil]
  simp only [skipped_sourceWarnings]
  rw [hsource, buildColumnMappings, List.filter_map, List.map_map]
  rfl

theorem activeMappings_eq_common (source dest : TableSchema)
    (hd : (dest.columns.map (·.name)).Nodup) :
    activeMappings (buildColumnMappings source (some dest)) = commonMappings source (some dest) := by
  rw [activeMappings, buildColumnMappings, commonMappings]
  induction source.columns with
  | nil => rfl
  | cons col cols ih =>
    rw [List.map_cons, List.filter_cons, List.filterMap_cons, ← columnsByName_get?_eq_find? hd]
    cases hget : (columnsByName dest.columns).get? col.name with
    | none => simpa [buildColumnMapping, hget] using ih
    | some dcol => simpa [buildColumnMapping, hget] using ih

theorem unmatched_sourceWarnings (destCols : Dict String ColumnSchema) (col : ColumnSchema) :
    (sourceWarnings source destCols col).filterMap (unmatchedColumn? dest) = [] := by
  rw [sourceWarnings]
  cases destCols.get? col.name with
  | none => simp [unmatchedColumn?_skipped]
  | some dcol =>
    by_cases hshort : Shortens col dcol
    · simp [hshort, unmatchedColumn?_length]
    · simp [hshort]

/-- The destination columns with a warning are those without a source column. -/
theorem unmatched_destWarnings (sourceColumns : List ColumnSchema) (dcol : ColumnSchema) :
    (destWarnings dest (columnsByName sourceColumns) (dcol.name, dcol)).filterMap
        (unmatchedColumn? dest) =
      if decide (dcol.name ∈ sourceColumns.map (·.name)) then [] else [dcol.name] := by
  rw [destWarnings]
  by_cases hkey : dcol.name ∈ sourceColumns.map (·.name)
  · rw [if_pos ((mem_keys_columnsByName _ _).mpr hkey), if_pos (decide_eq_true hkey)]
    rfl
  · rw [if_neg fun h => hkey ((mem_keys_columnsByName _ _).mp h),
      if_neg fun h => hkey (of_decide_eq_true h)]
    simp [unmatchedColumn?_unmatched]

/-- A destination column receives values exactly where the source has a column of its name. -/
theorem mem_destCol_iff {dcol : ColumnSchema} (hdcol : dcol ∈ dest.columns) :
    dcol.name ∈ (activeMappings (buildColumnMappings source (some dest))).map (·.destCol) ↔
      dcol.name ∈ source.columns.map (·.name) := by
  constructor
  · intro h
    obtain ⟨m, hm, hname⟩ := List.mem_map.mp h
    obtain ⟨col, hcol, -, hmcol⟩ := mem_activeMappings_buildColumnMappings.mp hm
    rw [← hname, hmcol]
    exact List.mem_map_of_mem hcol
  · intro h
    obtain ⟨col, hcol, hname⟩ := List.mem_map.mp h
    have hshared : col.name ∈ dest.columns.map (·.name) := hname ▸ List.mem_map_of_mem hdcol
    exact List.mem_map.mpr ⟨_, mem_activeMappings_buildColumnMappings.mpr
      ⟨col, hcol, hshared, rfl⟩, hname⟩

theorem unmatched_pairWarnings (source dest : TableSchema)
    (hd : (dest.columns.map (·.name)).Nodup) :
    (pairWarnings source dest).filterMap (unmatchedColumn? dest) =
      (dest.columns.map (·.name)).filter fun name =>
        name ∉ (activeMappings (buildColumnMappings source (some dest))).map (·.destCol) := by
  rw [pairWarnings, List.filterMap_append, List.filterMap_flatMap, List.filterMap_flatMap,
    entries_columnsByName hd, List.flatMap_map,
    List.flatMap_eq_nil_iff.mpr fun col _ => unmatched_sourceWarnings _ col, List.nil_append]
  simp only [unmatched_destWarnings]
  rw [flatMap_unless, List.filter_map]
  congr 1
  apply List.filter_congr
  intro dcol hdcol
  rw [Function.comp_apply, ← decide_not, decide_eq_decide, mem_destCol_iff hdcol]

end pairs

/-- What the validator warns about is what the mapper does: the columns that it says will be skipped
are those whose descriptors are not included, the included descriptors are those of the common
columns, and the columns that it says have no source column are in no included descriptor. -/
theorem warnings_agree_with_mappings {source : TableSchema} {destination : Option TableSchema}
    {warnings : List String} (hd : ∀ dest, destination = some dest →
      (dest.columns.map (·.name)).Nodup)
    (h : validateSchemaCompatibility source destination = .ok warnings) :
    warnings.filterMap (skippedColumn? source) =
      ((buildColumnMappings source destination).filter (!·.included)).map (·.sourceCol) ∧
    activeMappings (buildColumnMappings source destination) = commonMappings source destination ∧
    match destination with
    | none => warnings = []
    | some dest => warnings.filterMap (unmatchedColumn? dest) =
        (dest.columns.map (·.name)).filter fun name =>
          name ∉ (activeMappings (buildColumnMappings source destination)).map (·.destCol) := by
  cases destination with
  | none =>
    have hnone : warnings = [] := by
      unfold validateSchemaCompatibility at h
      split at h
      · cases h
      · exact (Except.ok.inj h).symm
    subst hnone
    have hall : ∀ m ∈ buildColumnMappings source none, m.included = true := by
      intro m hm
      obtain ⟨col, -, rfl⟩ := List.mem_map.mp hm
      rfl
    refine ⟨?_, ?_, rfl⟩
    · rw [List.filter_eq_nil_iff.mpr fun m hm => by simp [hall m hm]]
      rfl
    · rw [activeMappings, List.filter_eq_self.mpr hall]
      rfl
  | some dest =>
    obtain ⟨-, -, hwarnings⟩ := validate_ok h
    subst hwarnings
    exact ⟨skipped_pairWarnings source dest, activeMappings_eq_common source dest (hd dest rfl),
      unmatched_pairWarnings source dest (hd dest rfl)⟩

private def stock : TableSchema where
  name := "stock"
  columns := [{ name := "id", dataType := "INTEGER" },
    { name := "colour", dataType := "VARCHAR", maxLength := some 80 },
    { name := "label", dataType := "VARCHAR", maxLength := some 80 }]

private def narrowStock : TableSchema where
  name := "stock"
  columns := [{ name := "label", dataType := "VARCHAR", maxLength := some 40 },
    { name := "id", dataType := "BIGINT" }, { name := "seen", dataType := "DATE" }]

theorem warnings_agree_with_mappings_stock :
    (narrowStock.columns.map (·.name)).Nodup ∧ ∃ warnings,
      validateSchemaCompatibility stock (some narrowStock) = .ok warnings ∧
      warnings.filterMap (skippedColumn? stock) = ["colour"] ∧
      (activeMappings (buildColumnMappings stock (some narrowStock))).map (·.destType) =
        ["BIGINT", "VARCHAR"] ∧
      warnings.filterMap (unmatchedColumn? narrowStock) = ["seen"] := by
  have hd : (narrowStock.columns.map (·.name)).Nodup := by decide
  have h : validateSchemaCompatibility stock (some narrowStock) =
      .ok (pairWarnings stock narrowStock) := by decide +kernel
  obtain ⟨hskipped, hcommon, hunmatched⟩ := warnings_agree_with_mappings
    (fun dest hdest => by cases hdest; exact hd) h
  refine ⟨hd, _, h, ?_, ?_, ?_⟩
  · rw [hskipped]
    decide
  · rw [hcommon]
    decide
  · rw [hunmatched]
    decide

end DataBridge
