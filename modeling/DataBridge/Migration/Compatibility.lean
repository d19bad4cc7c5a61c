import DataBridge.Migration.Validator

namespace DataBridge

/-- Both families are known, and they differ. -/
def FamiliesClash (col dcol : ColumnSchema) : Prop :=
  family col.dataType ≠ none ∧ family dcol.dataType ≠ none ∧
    family col.dataType ≠ family dcol.dataType

/-- Both lengths are set and not zero, and the destination has the smaller one. -/
def Shortens (col dcol : ColumnSchema) : Prop :=
  truthy dcol.maxLength ∧ truthy col.maxLength ∧ col.maxLength.getD 0 > dcol.maxLength.getD 0

instance (col dcol : ColumnSchema) : Decidable (Shortens col dcol) :=
  inferInstanceAs (Decidable (_ ∧ _ ∧ _))

/-- A column that a row without a value for it cannot be stored in. -/
def RequiresValue (dcol : ColumnSchema) : Prop := dcol.isNullable = false ∧ dcol.default = none

/-- The warnings of one source column whose families do not clash. -/
def sourceWarnings (source : TableSchema) (destCols : Dict String ColumnSchema)
    (col : ColumnSchema) : List String :=
  match destCols.get? col.name with
  | none => [skippedWarning source col]
  | some dcol => if Shortens col dcol then [lengthWarning col dcol] else []

/-- The warnings of one destination column, unless it requires a value that no source column has. -/
def destWarnings (destination : TableSchema) (srcCols : Dict String ColumnSchema)
    (entry : String × ColumnSchema) : List String :=
  if entry.1 ∈ srcCols.keys then [] else [unmatchedWarning destination entry.1]

theorem checkSourceColumn_ok (source : TableSchema) {destCols : Dict String ColumnSchema}
    {col : ColumnSchema} (h : ∀ dcol, destCols.get? col.name = some dcol → ¬ FamiliesClash col dcol)
    (warnings : List String) :
    checkSourceColumn source destCols warnings col =
      .ok (warnings ++ sourceWarnings source destCols col) := by
  rw [checkSourceColumn, sourceWarnings]
  cases hget : destCols.get? col.name with
  | none => rfl
  | some dcol =>
    refine (if_neg (h dcol hget)).trans ?_
    by_cases hshort : Shortens col dcol
    · exact (if_pos hshort).trans (by simp [hshort])
    · exact (if_neg hshort).trans (by simp [hshort])

theorem checkSourceColumn_error (source : TableSchema) {destCols : Dict String ColumnSchema}
    {col dcol : ColumnSchema} (hget : destCols.get? col.name = some dcol)
    (h : FamiliesClash col dcol) (warnings : List String) :
    checkSourceColumn source destCols warnings col = .error (familyError source col dcol) := by
  rw [checkSourceColumn, hget]
  exact if_pos h

theorem checkDestColumn_ok (destination : TableSchema) {srcCols : Dict String ColumnSchema}
    {entry : String × ColumnSchema} (h : entry.1 ∉ srcCols.keys → ¬ RequiresValue entry.2)
    (warnings : List String) :
    checkDestColumn destination srcCols warnings entry =
      .ok (warnings ++ destWarnings destination srcCols entry) := by
  rw [checkDestColumn, destWarnings]
  by_cases hkey : entry.1 ∈ srcCols.keys
  · rw [if_pos hkey, if_pos hkey, List.append_nil]
  · have hfilled := h hkey
    rw [RequiresValue] at hfilled
    rw [if_neg hkey, if_neg hkey, if_neg (by simpa using hfilled)]

theorem checkDestColumn_error (destination : TableSchema) {srcCols : Dict String ColumnSchema}
    {entry : String × ColumnSchema} (hkey : entry.1 ∉ srcCols.keys) (h : RequiresValue entry.2)
    (warnings : List String) :
    checkDestColumn destination srcCols warnings entry =
      .error (notNullError destination entry.1) := by
  rw [checkDestColumn, if_neg hkey, if_pos]
  simpa [RequiresValue] using h

/-- What the two loops raise on. -/
def Rejected (source destination : TableSchema) : Prop :=
  (∃ col ∈ source.columns, ∃ dcol,
    (columnsByName destination.columns).get? col.name = some dcol ∧ FamiliesClash col dcol) ∨
  ∃ entry ∈ (columnsByName destination.columns).entries,
    entry.1 ∉ (columnsByName source.columns).keys ∧ RequiresValue entry.2

/-- What the two loops collect where neither raises. -/
def pairWarnings (source destination : TableSchema) : List String :=
  source.columns.flatMap (sourceWarnings source (columnsByName destination.columns)) ++
    (columnsByName destination.columns).entries.flatMap
      (destWarnings destination (columnsByName source.columns))

section pairs

variable {source destination : TableSchema}

theorem sourceColumns_ok (h : ¬ Rejected source destination) (warnings : List String) :
    source.columns.foldlM (checkSourceColumn source (columnsByName destination.columns)) warnings =
      .ok (warnings ++
        source.columns.flatMap (sourceWarnings source (columnsByName destination.columns))) := by
  apply ExceptList.foldlM_append
  intro col hcol acc
  apply checkSourceColumn_ok
  intro dcol hget hclash
  exact h (Or.inl ⟨col, hcol, dcol, hget, hclash⟩)

theorem validate_of_accepted (hne : source.columns ≠ []) (h : ¬ Rejected source destination) :
    validateSchemaCompatibility source (some destination) =
      .ok (pairWarnings source destination) := by
  have hdest : ∀ acc : List String, (columnsByName destination.columns).entries.foldlM
      (checkDestColumn destination (columnsByName source.columns)) acc =
        .ok (acc ++ (columnsByName destination.columns).entries.flatMap
          (destWarnings destination (columnsByName source.columns))) := by
    intro acc
    apply ExceptList.foldlM_append
    intro entry hentry acc
    apply checkDestColumn_ok
    intro hkey hrequired
    exact h (Or.inr ⟨entry, hentry, hkey, hrequired⟩)
  rw [validateSchemaCompatibility, if_neg hne]
  dsimp only
  rw [sourceColumns_ok h []]
  exact hdest _

theorem validate_of_rejected (h : Rejected source destination) :
    ∃ exc, validateSchemaCompatibility source (some destination) = .error exc := by
  rw [validateSchemaCompatibility]
  by_cases hne : source.columns = []
  · exact ⟨_, if_pos hne⟩
  rw [if_neg hne]
  dsimp only
  cases hfirst : source.columns.foldlM
      (checkSourceColumn source (columnsByName destination.columns)) [] with
  | error exc => exact ⟨exc, rfl⟩
  | ok warnings =>
    rcases h with ⟨col, hcol, dcol, hget, hclash⟩ | ⟨entry, hentry, hkey, hrequired⟩
    · obtain ⟨exc, hraised⟩ := ExceptList.foldlM_error_of_mem hcol
        (fun acc => ⟨_, checkSourceColumn_error source hget hclash acc⟩) []
      rw [hraised] at hfirst
      cases hfirst
    · exact ExceptList.foldlM_error_of_mem hentry
        (fun acc => ⟨_, checkDestColumn_error destination hkey hrequired acc⟩) warnings

theorem validate_raises_iff (hne : source.columns ≠ []) :
    (∃ exc, validateSchemaCompatibility source (some destination) = .error exc) ↔
      Rejected source destination := by
  refine ⟨?_, validate_of_rejected⟩
  intro hraised
  by_contra hok
  obtain ⟨exc, herror⟩ := hraised
  rw [validate_of_accepted hne hok] at herror
  cases herror

/-- A pair that is accepted has columns in the source, and its warnings are those collected. -/
theorem validate_ok {warnings : List String}
    (h : validateSchemaCompatibility source (some destination) = .ok warnings) :
    source.columns ≠ [] ∧ ¬ Rejected source destination ∧
      warnings = pairWarnings source destination := by
  have hne : source.columns ≠ [] := by
    intro hempty
    rw [validateSchemaCompatibility, if_pos hempty] at h
    cases h
  have haccepted : ¬ Rejected source destination := by
    intro hrejected
    obtain ⟨exc, herror⟩ := validate_of_rejected hrejected
    rw [h] at herror
    cases herror
  rw [validate_of_accepted hne haccepted] at h
  cases h
  exact ⟨hne, haccepted, rfl⟩

end pairs

theorem validate_error_kind {source : TableSchema} {destination : Option TableSchema} {exc : Exc}
    (h : validateSchemaCompatibility source destination = .error exc) :
    exc.kind = .schemaCompatibilityError := by
  unfold validateSchemaCompatibility at h
  by_cases hne : source.columns = []
  · rw [if_pos hne] at h
    cases h
    rfl
  rw [if_neg hne] at h
  cases destination with
  | none => cases h
  | some destination =>
    rcases ExceptList.bind_error_iff.mp h with hfirst | ⟨warnings, -, hsecond⟩
    · obtain ⟨col, -, acc, hcol⟩ := ExceptList.foldlM_error hfirst
      rw [checkSourceColumn] at hcol
      split at hcol
      · cases hcol
      · dsimp only at hcol
        split_ifs at hcol
        all_goals
          cases hcol
          rfl
    · obtain ⟨entry, -, acc, hentry⟩ := ExceptList.foldlM_error hsecond
      rw [checkDestColumn] at hentry
      split_ifs at hentry
      cases hentry
      rfl

/-! ## The verdict and the warnings without an order -/

private theorem length_flatMap_filter {α β : Type} {f : α → List β} {p q : α → Bool}
    {xs : List α} (h : ∀ x ∈ xs, (f x).length = (p x).toNat + (q x).toNat) :
    (xs.flatMap f).length = (xs.filter p).length + (xs.filter q).length := by
  induction xs with
  | nil => rfl
  | cons x xs ih =>
    have hrest := ih fun y hy => h y (List.mem_cons_of_mem x hy)
    have hx := h x List.mem_cons_self
    rw [List.flatMap_cons, List.length_append, hrest, hx, List.filter_cons, List.filter_cons]
    cases p x <;> cases q x <;> simp <;> omega

/-- The columns that the other table has no column of that name for. -/
def onlyIn (table other : TableSchema) : List ColumnSchema :=
  table.columns.filter fun col => col.name ∉ other.columns.map (·.name)

/-- The source columns whose destination column is shorter. -/
def shortened (source destination : TableSchema) : List ColumnSchema :=
  source.columns.filter fun col =>
    ∃ dcol ∈ destination.columns, dcol.name = col.name ∧ Shortens col dcol

/-- No columns to copy, a shared column of another family, or a value that is missing. -/
def Incompatible (source : TableSchema) (destination : Option TableSchema) : Prop :=
  source.columns = [] ∨ ∃ dest, destination = some dest ∧
    ((∃ col ∈ source.columns, ∃ dcol ∈ dest.columns, dcol.name = col.name ∧
        FamiliesClash col dcol) ∨
      ∃ dcol ∈ onlyIn dest source, RequiresValue dcol)

def warningCount (source : TableSchema) : Option TableSchema → Nat
  | none => 0
  | some dest => (onlyIn source dest).length + (shortened source dest).length +
      (onlyIn dest source).length

/-- The same table with its columns in another order. -/
structure Reordered (table other : TableSchema) : Prop where
  name : other.name = table.name
  columns : other.columns.Perm table.columns

/-- Both raise, or both return the same warnings in some order. -/
def SameVerdict : Except Exc (List String) → Except Exc (List String) → Prop
  | .error _, .error _ => True
  | .ok warnings, .ok warnings' => warnings.Perm warnings'
  | _, _ => False

section named

variable {source dest : TableSchema} (hd : (dest.columns.map (·.name)).Nodup)

theorem entries_columnsByName {columns : List ColumnSchema}
    (h : (columns.map (·.name)).Nodup) :
    (columnsByName columns).entries = columns.map fun c => (c.name, c) := by
  apply Dict.entries_ofList
  simpa [List.map_map, Function.comp_def] using h

include hd

theorem rejected_iff : Rejected source dest ↔
    (∃ col ∈ source.columns, ∃ dcol ∈ dest.columns, dcol.name = col.name ∧
        FamiliesClash col dcol) ∨
      ∃ dcol ∈ onlyIn dest source, RequiresValue dcol := by
  apply or_congr
  · simp only [columnsByName_get? _ hd, and_assoc]
  · rw [entries_columnsByName hd]
    constructor
    · intro h
      obtain ⟨entry, hentry, hkey, hrequired⟩ := h
      obtain ⟨dcol, hdcol, hpair⟩ := List.mem_map.mp hentry
      subst hpair
      rw [mem_keys_columnsByName] at hkey
      exact ⟨dcol, List.mem_filter.mpr ⟨hdcol, by simpa using hkey⟩, hrequired⟩
    · intro h
      obtain ⟨dcol, hdcol, hrequired⟩ := h
      obtain ⟨hmem, hkey⟩ := List.mem_filter.mp hdcol
      refine ⟨(dcol.name, dcol), List.mem_map.mpr ⟨dcol, hmem, rfl⟩, ?_, hrequired⟩
      rw [mem_keys_columnsByName]
      simpa using hkey

theorem incompatible_iff : Incompatible source (some dest) ↔
    source.columns = [] ∨ Rejected source dest := by
  rw [Incompatible, rejected_iff hd]
  apply or_congr_right
  constructor
  · intro h
    obtain ⟨dest', heq, hcase⟩ := h
    cases heq
    exact hcase
  · exact fun h => ⟨dest, rfl, h⟩

theorem length_sourceWarnings (source : TableSchema) (col : ColumnSchema) :
    (sourceWarnings source (columnsByName dest.columns) col).length =
      (decide (col.name ∉ dest.columns.map (·.name))).toNat +
      (decide (∃ dcol ∈ dest.columns, dcol.name = col.name ∧ Shortens col dcol)).toNat := by
  cases hget : (columnsByName dest.columns).get? col.name with
  | none =>
    have habsent : col.name ∉ dest.columns.map (·.name) := by
      rw [← mem_keys_columnsByName, ← Dict.get?_eq_none, hget]
    have hshort : ¬ ∃ dcol ∈ dest.columns, dcol.name = col.name ∧ Shortens col dcol := by
      intro h
      obtain ⟨dcol, hdcol, hname, -⟩ := h
      exact habsent (hname ▸ List.mem_map_of_mem hdcol)
    rw [sourceWarnings, hget, decide_eq_true habsent, decide_eq_false hshort]
    rfl
  | some dcol =>
    obtain ⟨hdcol, hname⟩ := (columnsByName_get? _ hd _ _).mp hget
    have hpresent : col.name ∈ dest.columns.map (·.name) := hname ▸ List.mem_map_of_mem hdcol
    have hshort : (∃ dcol' ∈ dest.columns, dcol'.name = col.name ∧ Shortens col dcol') ↔
        Shortens col dcol := by
      constructor
      · intro h
        obtain ⟨dcol', hdcol', hname', hshort⟩ := h
        have hsame := (columnsByName_get? _ hd _ _).mpr ⟨hdcol', hname'⟩
        rw [hget] at hsame
        cases hsame
        exact hshort
      · exact fun h => ⟨dcol, hdcol, hname, h⟩
    rw [sourceWarnings, hget, decide_eq_false (not_not_intro hpresent)]
    by_cases h : Shortens col dcol
    · rw [decide_eq_true (hshort.mpr h)]
      simp [h]
    · rw [decide_eq_false fun hex => h (hshort.mp hex)]
      simp [h]

/-- One warning for every column that is skipped, shorter or without a source column. -/
theorem pairWarnings_length :
    (pairWarnings source dest).length = warningCount source (some dest) := by
  have hsource := length_flatMap_filter fun col (_ : col ∈ source.columns) =>
    length_sourceWarnings hd source col
  have hdest : (dest.columns.flatMap fun c =>
      destWarnings dest (columnsByName source.columns) (c.name, c)).length =
        (onlyIn dest source).length + (dest.columns.filter fun _ => false).length := by
    apply length_flatMap_filter
    intro dcol _
    rw [destWarnings]
    by_cases hkey : dcol.name ∈ source.columns.map (·.name)
    · rw [if_pos ((mem_keys_columnsByName _ _).mpr hkey), decide_eq_false (not_not_intro hkey)]
      rfl
    · rw [if_neg fun h => hkey ((mem_keys_columnsByName _ _).mp h), decide_eq_true hkey]
      rfl
  rw [pairWarnings, List.length_append, hsource, entries_columnsByName hd, List.flatMap_map, hdest,
    List.filter_false]
  rfl

end named

section reordered

variable {source source' dest dest' : TableSchema}

theorem Reordered.nodup (h : Reordered source source') (hs : (source.columns.map (·.name)).Nodup) :
    (source'.columns.map (·.name)).Nodup :=
  (h.columns.map _).nodup_iff.mpr hs

theorem Reordered.mem_names (h : Reordered source source') (name : String) :
    name ∈ source'.columns.map (·.name) ↔ name ∈ source.columns.map (·.name) :=
  (h.columns.map _).mem_iff

theorem Reordered.columns_eq_nil (h : Reordered source source') :
    source'.columns = [] ↔ source.columns = [] := by
  rw [← List.length_eq_zero_iff, ← List.length_eq_zero_iff, h.columns.length_eq]

/-- A lookup by name does not see the order of the columns. -/
theorem Reordered.get? (h : Reordered dest dest') (hd : (dest.columns.map (·.name)).Nodup)
    (name : String) :
    (columnsByName dest'.columns).get? name = (columnsByName dest.columns).get? name := by
  apply Option.ext
  intro dcol
  rw [columnsByName_get? _ (h.nodup hd), columnsByName_get? _ hd, h.columns.mem_iff]

theorem Reordered.rejected_iff (h : Reordered source source') (h' : Reordered dest dest')
    (hd : (dest.columns.map (·.name)).Nodup) :
    Rejected source' dest' ↔ Rejected source dest := by
  rw [DataBridge.rejected_iff (h'.nodup hd), DataBridge.rejected_iff hd]
  simp only [onlyIn, List.mem_filter, h.columns.mem_iff, h'.columns.mem_iff, h.mem_names]

/-- The same warnings, in the order of the columns. -/
theorem Reordered.pairWarnings_perm (h : Reordered source source') (h' : Reordered dest dest')
    (hd : (dest.columns.map (·.name)).Nodup) :
    (pairWarnings source dest).Perm (pairWarnings source' dest') := by
  have hsource : sourceWarnings source' (columnsByName dest'.columns) =
      sourceWarnings source (columnsByName dest.columns) := by
    funext col
    rw [sourceWarnings, sourceWarnings, h'.get? hd]
    cases (columnsByName dest.columns).get? col.name with
    | none => simp [skippedWarning, h.name]
    | some dcol => rfl
  have hdest : ∀ dcol : ColumnSchema,
      destWarnings dest' (columnsByName source'.columns) (dcol.name, dcol) =
        destWarnings dest (columnsByName source.columns) (dcol.name, dcol) := by
    intro dcol
    simp only [destWarnings, mem_keys_columnsByName, h.mem_names, unmatchedWarning, h'.name]
  rw [pairWarnings, pairWarnings, entries_columnsByName hd, entries_columnsByName (h'.nodup hd),
    List.flatMap_map, List.flatMap_map, hsource]
  simp only [hdest]
  exact (h.columns.symm.flatMap_right _).append (h'.columns.symm.flatMap_right _)

theorem Reordered.sameVerdict (h : Reordered source source') (h' : Reordered dest dest')
    (hd : (dest.columns.map (·.name)).Nodup) :
    SameVerdict (validateSchemaCompatibility source (some dest))
      (validateSchemaCompatibility source' (some dest')) := by
  by_cases hne : source.columns = []
  · have hne' := h.columns_eq_nil.mpr hne
    rw [validateSchemaCompatibility, validateSchemaCompatibility, if_pos hne, if_pos hne']
    trivial
  have hne' : source'.columns ≠ [] := fun he => hne (h.columns_eq_nil.mp he)
  by_cases hrejected : Rejected source dest
  · obtain ⟨exc, hexc⟩ := validate_of_rejected hrejected
    obtain ⟨exc', hexc'⟩ := validate_of_rejected ((h.rejected_iff h' hd).mpr hrejected)
    rw [hexc, hexc']
    trivial
  · have hrejected' := fun hr => hrejected ((h.rejected_iff h' hd).mp hr)
    rw [validate_of_accepted hne hrejected, validate_of_accepted hne' hrejected']
    exact h.pairWarnings_perm h' hd

end reordered

/-- The validator raises on the incompatible pairs only, gives one warning for each finding, and
does not depend on the order of the columns. -/
theorem validate_accepts_compatible {source : TableSchema} {destination : Option TableSchema}
    (hd : ∀ dest, destination = some dest → (dest.columns.map (·.name)).Nodup) :
    ((∃ exc, validateSchemaCompatibility source destination = .error exc) ↔
      Incompatible source destination) ∧
    (∀ warnings, validateSchemaCompatibility source destination = .ok warnings →
      warnings.length = warningCount source destination) ∧
    ∀ source' destination', Reordered source source' →
      Option.Rel Reordered destination destination' →
      SameVerdict (validateSchemaCompatibility source destination)
        (validateSchemaCompatibility source' destination') := by
  cases destination with
  | none =>
    refine ⟨?_, ?_, ?_⟩
    · unfold validateSchemaCompatibility Incompatible
      by_cases hne : source.columns = [] <;> simp [hne]
    · intro warnings h
      unfold validateSchemaCompatibility at h
      by_cases hne : source.columns = []
      · simp [hne] at h
      · simp only [if_neg hne, Except.ok.injEq] at h
        rw [← h]
        rfl
    · intro source' destination' h h'
      cases h'
      unfold validateSchemaCompatibility
      by_cases hne : source.columns = []
      · rw [if_pos hne, if_pos (h.columns_eq_nil.mpr hne)]
        trivial
      · rw [if_neg hne, if_neg fun he => hne (h.columns_eq_nil.mp he)]
        exact List.Perm.nil
  | some dest =>
    have hdest := hd dest rfl
    refine ⟨?_, ?_, ?_⟩
    · rw [incompatible_iff hdest]
      by_cases hne : source.columns = []
      · have hraised : validateSchemaCompatibility source (some dest) =
            .error (noColumnsError source) := if_pos hne
        simp [hraised, hne]
      · rw [validate_raises_iff hne]
        exact ⟨Or.inr, fun h => h.resolve_left hne⟩
    · intro warnings h
      obtain ⟨-, -, hwarnings⟩ := validate_ok h
      rw [hwarnings]
      exact pairWarnings_length hdest
    · intro source' destination' h h'
      cases h' with
      | some hrel => exact h.sameVerdict hrel hdest

private def ledger : TableSchema where
  name := "ledger"
  columns := [{ name := "id", dataType := "INTEGER" },
    { name := "note", dataType := "VARCHAR", maxLength := some 80 },
    { name := "extra", dataType := "TEXT" }]

private def shorterLedger : TableSchema where
  name := "ledger"
  columns := [{ name := "note", dataType := "VARCHAR", maxLength := some 40 },
    { name := "id", dataType := "BIGINT" }, { name := "seen", dataType := "DATE" }]

theorem validate_accepts_compatible_ledger :
    (shorterLedger.columns.map (·.name)).Nodup ∧ warningCount ledger (some shorterLedger) = 3 ∧
    ∀ warnings, validateSchemaCompatibility ledger (some shorterLedger) = .ok warnings →
      warnings.length = warningCount ledger (some shorterLedger) := by
  have hd : (shorterLedger.columns.map (·.name)).Nodup := by decide
  refine ⟨hd, by decide, ?_⟩
  refine (validate_accepts_compatible ?_).2.1
  intro dest h
  cases h
  exact hd

end DataBridge
