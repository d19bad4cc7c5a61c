import DataBridge.Migration.Compatibility
import Mathlib.Data.Rat.Lemmas

namespace DataBridge

/-- The name of a type without its size, in upper case, as the mapper reads it. -/
def baseType (dtype : String) : String := PyText.before '(' (PyText.upper dtype)

/-- The number that a value is in a comparison; a bool counts as 0 or 1. -/
def Value.number? : Value → Option ℚ
  | .bool b => some (if b then 1 else 0)
  | .int i => some i
  | .float (.finite q) => some q
  | _ => Option.none

/-- `v == w`, or both are one object. -/
def SameValue (v w : Value) : Prop := v = w ∨ ∃ q, v.number? = some q ∧ w.number? = some q

/-- A value that a column can hold: its length limits a text, and a float needs a column for it. -/
def Fits (col : ColumnSchema) : Value → Prop
  | .str s => ∀ n, col.maxLength = some n → s.length ≤ n
  | .float _ => baseType col.dataType ∈ ["FLOAT", "DOUBLE", "DECIMAL", "NUMERIC"]
  | _ => True

def RowFits (source : TableSchema) (row : Row) : Prop :=
  ∀ col ∈ source.columns, Fits col (row.get col.name)

/-- Every source column has its value in the new row, and its texts fit the destination column. -/
def RowKept (source destination : TableSchema) (row new : Row) : Prop :=
  ∀ col ∈ source.columns, ∃ w, new.get? col.name = some w ∧ SameValue (row.get col.name) w ∧
    ∀ s dcol n, w = .str s → (columnsByName destination.columns).get? col.name = some dcol →
      dcol.maxLength = some n → s.length ≤ n

/-- The values that pass from `col` to `dcol` as they are. A text does where both lengths are set,
the destination's not to 0, for then the validator has compared them; otherwise it must be short. -/
def PassesUnchanged (col dcol : ColumnSchema) : Value → Prop
  | .str s => baseType dcol.dataType ≠ "BOOLEAN" ∧ ∀ n, dcol.maxLength = some n →
      col.maxLength ≠ none ∧ n ≠ 0 ∨ s.length ≤ n
  | .int i => baseType dcol.dataType = "BOOLEAN" → i = 0 ∨ i = 1
  | .float f => baseType dcol.dataType ∈ ["INTEGER", "SMALLINT", "BIGINT"] →
      ∃ i : Int, f = .finite i
  | .container _ => baseType dcol.dataType ∉ ["TEXT", "VARCHAR", "CHAR"]
  | _ => True

theorem sameValue_refl (v : Value) : SameValue v v := Or.inl rfl

/-- Only a number equals a value that it is not. -/
theorem sameValue_iff_of_not_number {v w : Value} (h : v.number? = none) :
    SameValue v w ↔ w = v := by
  constructor
  · intro hsame
    rcases hsame with heq | ⟨q, hq, -⟩
    · exact heq.symm
    · rw [h] at hq
      cases hq
  · intro heq
    exact Or.inl heq.symm

theorem sameValue_bool_iff (i : Int) :
    SameValue (.int i) (.bool (i ≠ 0)) ↔ i = 0 ∨ i = 1 := by
  constructor
  · intro hsame
    rcases hsame with heq | ⟨q, hq, hw⟩
    · cases heq
    · simp only [Value.number?, Option.some.injEq] at hq hw
      rw [← hw] at hq
      by_cases hi : i = 0
      · exact Or.inl hi
      · simp only [hi, ne_eq, not_false_eq_true, decide_true, if_true] at hq
        exact Or.inr (by exact_mod_cast hq)
  · intro hcases
    rcases hcases with rfl | rfl
    · exact Or.inr ⟨0, by simp [Value.number?], by simp [Value.number?]⟩
    · exact Or.inr ⟨1, by simp [Value.number?], by simp [Value.number?]⟩

/-- Truncation keeps a number just when it is an integer. -/
theorem sameValue_truncated_iff (q : ℚ) :
    SameValue (.float (.finite q)) (.int (q.num.tdiv q.den)) ↔ ∃ i : Int, q = i := by
  constructor
  · intro hsame
    rcases hsame with heq | ⟨r, hr, hw⟩
    · cases heq
    · simp only [Value.number?, Option.some.injEq] at hr hw
      exact ⟨_, by rw [hr, ← hw]⟩
  · intro hint
    obtain ⟨i, rfl⟩ := hint
    exact Or.inr ⟨i, rfl, by simp [Value.number?]⟩

theorem coerce_str_eq (s dtype : String) : coerce (.str s) dtype =
    .ok (if baseType dtype = "BOOLEAN" then
      .bool (PyText.lower s ∈ ["1", "true", "yes", "t"]) else .str s) := by
  unfold coerce baseType
  rw [if_neg (by simp)]
  dsimp only
  split_ifs <;> rfl

theorem coerce_int_eq (i : Int) (dtype : String) : coerce (.int i) dtype =
    .ok (if baseType dtype = "BOOLEAN" then .bool (i ≠ 0) else .int i) := by
  unfold coerce baseType
  rw [if_neg (by simp)]
  dsimp only
  split_ifs <;> rfl

theorem coerce_float_eq (f : PyFloat) (dtype : String) : coerce (.float f) dtype =
    if baseType dtype ∈ ["INTEGER", "SMALLINT", "BIGINT"] then f.toInt.map .int
    else .ok (.float f) := by
  unfold coerce baseType
  rw [if_neg (by simp)]
  dsimp only
  by_cases hbool : PyText.before '(' (PyText.upper dtype) = "BOOLEAN"
  · rw [if_pos hbool, if_neg (by rw [hbool]; decide)]
  · rw [if_neg hbool]
    split_ifs <;> rfl

theorem coerce_container_eq (dumps : Option String) (dtype : String) :
    coerce (.container dumps) dtype =
      if baseType dtype ∈ ["TEXT", "VARCHAR", "CHAR"] then
        match dumps with
        | some dumped => .ok (.str dumped)
        | none => .error ⟨.typeError, "value is not JSON serializable"⟩
      else .ok (.container dumps) := by
  unfold coerce baseType
  rw [if_neg (by simp)]
  dsimp only
  generalize PyText.before '(' (PyText.upper dtype) = upper
  by_cases hbool : upper = "BOOLEAN"
  · rw [if_pos hbool, if_neg (by rw [hbool]; decide)]
  · rw [if_neg hbool]
    by_cases hint : upper ∈ ["INTEGER", "SMALLINT", "BIGINT"]
    · have htext : upper ∉ ["TEXT", "VARCHAR", "CHAR"] := by
        simp only [List.mem_cons, List.not_mem_nil, or_false] at hint ⊢
        rcases hint with rfl | rfl | rfl <;> decide
      rw [if_pos hint, if_neg htext]
    · rw [if_neg hint]
      cases dumps <;> rfl

/-- The values that no type changes. -/
theorem coerce_plain {v : Value} (h : v = .none ∨ (∃ b, v = .bool b) ∨ (∃ b, v = .bytes b) ∨
    ∃ text, v = .other text) (dtype : String) : coerce v dtype = .ok v := by
  rcases h with rfl | ⟨b, rfl⟩ | ⟨b, rfl⟩ | ⟨text, rfl⟩
  · rfl
  all_goals
    unfold coerce
    rw [if_neg (by simp)]
    dsimp only
    split_ifs <;> rfl

/-- A text that the two columns hold passes, by the comparison of their lengths or by its own. -/
theorem str_kept_iff {col dcol : ColumnSchema} {s : String} (hfits : Fits col (.str s))
    (hshort : ¬ Shortens col dcol) :
    (∀ n, dcol.maxLength = some n → s.length ≤ n) ↔
      ∀ n, dcol.maxLength = some n → col.maxLength ≠ none ∧ n ≠ 0 ∨ s.length ≤ n := by
  refine ⟨fun h n hn => Or.inr (h n hn), ?_⟩
  intro h n hn
  rcases h n hn with ⟨hset, hn0⟩ | hle
  · obtain ⟨m, hm⟩ := Option.ne_none_iff_exists'.mp hset
    have hs : s.length ≤ m := hfits m hm
    have hmn : m = 0 ∨ m ≤ n := by
      by_contra hlarge
      rw [not_or, Nat.not_le] at hlarge
      apply hshort
      simp [Shortens, truthy, hm, hn, hn0, hlarge.1, hlarge.2]
    omega
  · exact hle

/-- The coerced value is the same one, and a text is short enough for the column. -/
def Arrives (dcol : ColumnSchema) (v : Value) : Prop :=
  ∃ w, coerce v dcol.dataType = .ok w ∧ SameValue v w ∧
    ∀ s n, w = .str s → dcol.maxLength = some n → s.length ≤ n

section arrives

variable {col dcol : ColumnSchema} {v w : Value}

theorem arrives_iff (hok : coerce v dcol.dataType = .ok w) : Arrives dcol v ↔
    SameValue v w ∧ ∀ s n, w = .str s → dcol.maxLength = some n → s.length ≤ n := by
  constructor
  · intro h
    obtain ⟨w', hok', hparts⟩ := h
    rw [hok] at hok'
    cases hok'
    exact hparts
  · exact fun h => ⟨w, hok, h⟩

/-- No length limits a value that is no text. -/
theorem arrives_iff_same (hok : coerce v dcol.dataType = .ok w) (hne : ∀ s, w ≠ .str s) :
    Arrives dcol v ↔ SameValue v w := by
  rw [arrives_iff hok]
  exact and_iff_left fun s n hs _ => absurd hs (hne s)

theorem arrives_of_unchanged (hok : coerce v dcol.dataType = .ok v) (hne : ∀ s, v ≠ .str s) :
    Arrives dcol v := (arrives_iff_same hok hne).mpr (sameValue_refl v)

theorem not_arrives {e : Exc} (herror : coerce v dcol.dataType = .error e) : ¬ Arrives dcol v := by
  intro h
  obtain ⟨w, hok, -⟩ := h
  rw [herror] at hok
  cases hok

theorem arrives_str_iff {s : String} (hfits : Fits col (.str s)) (hshort : ¬ Shortens col dcol) :
    Arrives dcol (.str s) ↔ PassesUnchanged col dcol (.str s) := by
  rw [PassesUnchanged, ← str_kept_iff hfits hshort]
  have hok := coerce_str_eq s dcol.dataType
  by_cases hbool : baseType dcol.dataType = "BOOLEAN"
  · rw [if_pos hbool] at hok
    rw [arrives_iff_same hok (by simp)]
    refine iff_of_false ?_ fun h => h.1 hbool
    intro hsame
    cases (sameValue_iff_of_not_number rfl).mp hsame
  · rw [if_neg hbool] at hok
    rw [arrives_iff hok]
    constructor
    · exact fun h => ⟨hbool, fun n hn => h.2 s n rfl hn⟩
    · intro h
      refine ⟨sameValue_refl _, ?_⟩
      intro s' n hs hn
      cases hs
      exact h.2 n hn

theorem arrives_int_iff (i : Int) :
    Arrives dcol (.int i) ↔ (baseType dcol.dataType = "BOOLEAN" → i = 0 ∨ i = 1) := by
  have hok := coerce_int_eq i dcol.dataType
  by_cases hbool : baseType dcol.dataType = "BOOLEAN"
  · rw [if_pos hbool] at hok
    rw [arrives_iff_same hok (by simp), sameValue_bool_iff]
    exact ⟨fun h _ => h, fun h => h hbool⟩
  · rw [if_neg hbool] at hok
    exact iff_of_true (arrives_of_unchanged hok (by simp)) fun h => absurd h hbool

theorem arrives_float_iff (f : PyFloat) : Arrives dcol (.float f) ↔
    (baseType dcol.dataType ∈ ["INTEGER", "SMALLINT", "BIGINT"] → ∃ i : Int, f = .finite i) := by
  have hok := coerce_float_eq f dcol.dataType
  by_cases hint : baseType dcol.dataType ∈ ["INTEGER", "SMALLINT", "BIGINT"]
  · rw [if_pos hint] at hok
    rw [forall_prop_of_true hint]
    cases f with
    | finite q =>
      rw [arrives_iff_same hok (by simp), sameValue_truncated_iff]
      simp only [PyFloat.finite.injEq]
    | inf negative => exact iff_of_false (not_arrives hok) (by simp)
    | nan => exact iff_of_false (not_arrives hok) (by simp)
  · rw [if_neg hint] at hok
    exact iff_of_true (arrives_of_unchanged hok (by simp)) fun h => absurd h hint

theorem arrives_container_iff (dumps : Option String) : Arrives dcol (.container dumps) ↔
    baseType dcol.dataType ∉ ["TEXT", "VARCHAR", "CHAR"] := by
  have hok := coerce_container_eq dumps dcol.dataType
  by_cases htext : baseType dcol.dataType ∈ ["TEXT", "VARCHAR", "CHAR"]
  · rw [if_pos htext] at hok
    refine iff_of_false ?_ (not_not.mpr htext)
    cases dumps with
    | none => exact not_arrives hok
    | some dumped =>
      rw [arrives_iff hok]
      intro h
      cases (sameValue_iff_of_not_number rfl).mp h.1
  · rw [if_neg htext] at hok
    exact iff_of_true (arrives_of_unchanged hok (by simp)) htext

/-- A value arrives just when it passes unchanged. -/
theorem arrives_iff_passes (hfits : Fits col v) (hshort : ¬ Shortens col dcol) :
    Arrives dcol v ↔ PassesUnchanged col dcol v := by
  cases v with
  | none => exact iff_of_true (arrives_of_unchanged (coerce_plain (by simp) _) (by simp)) trivial
  | bool b => exact iff_of_true (arrives_of_unchanged (coerce_plain (by simp) _) (by simp)) trivial
  | bytes b => exact iff_of_true (arrives_of_unchanged (coerce_plain (by simp) _) (by simp)) trivial
  | other _ => exact iff_of_true (arrives_of_unchanged (coerce_plain (by simp) _) (by simp)) trivial
  | str s => exact arrives_str_iff hfits hshort
  | int i => exact arrives_int_iff i
  | float f => exact arrives_float_iff f
  | container dumps => exact arrives_container_iff dumps

end arrives

section pairs

variable {source destination : TableSchema}

/-- Without a warning every source column has a destination column, and none is shorter. -/
theorem unwarned_column (h : validateSchemaCompatibility source (some destination) = .ok [])
    {col : ColumnSchema} (hcol : col ∈ source.columns) :
    ∃ dcol, (columnsByName destination.columns).get? col.name = some dcol ∧ ¬ Shortens col dcol := by
  obtain ⟨-, -, hwarnings⟩ := validate_ok h
  obtain ⟨hsource, -⟩ := List.append_eq_nil_iff.mp hwarnings.symm
  have hnone := List.flatMap_eq_nil_iff.mp hsource col hcol
  rw [sourceWarnings] at hnone
  cases hget : (columnsByName destination.columns).get? col.name with
  | none =>
    rw [hget] at hnone
    cases hnone
  | some dcol =>
    rw [hget] at hnone
    refine ⟨dcol, rfl, ?_⟩
    intro hshort
    simp [hshort] at hnone

/-- The descriptor of a column with a destination column is included, and has its type. -/
theorem active_of_lookup {col dcol : ColumnSchema} (hcol : col ∈ source.columns)
    (hget : (columnsByName destination.columns).get? col.name = some dcol) :
    ∃ m ∈ activeMappings (buildColumnMappings source (some destination)),
      m.sourceCol = col.name ∧ m.destCol = col.name ∧ m.destType = dcol.dataType := by
  have hshared : col.name ∈ destination.columns.map (·.name) := by
    rw [← mem_keys_columnsByName]
    exact Dict.mem_keys_of_get? hget
  refine ⟨buildColumnMapping (columnsByName destination.columns) true col,
    mem_activeMappings_buildColumnMappings.mpr ⟨col, hcol, hshared, rfl⟩, rfl, rfl, ?_⟩
  simp [buildColumnMapping, hget]

/-- Descriptors of one destination column read the same source column and coerce to the same type. -/
theorem active_same (h : validateSchemaCompatibility source (some destination) = .ok [])
    {m m' : ColumnMapping}
    (hm : m ∈ activeMappings (buildColumnMappings source (some destination)))
    (hm' : m' ∈ activeMappings (buildColumnMappings source (some destination)))
    (hname : m.destCol = m'.destCol) : m.sourceCol = m'.sourceCol ∧ m.destType = m'.destType := by
  obtain ⟨col, hcol, -, hmcol⟩ := mem_activeMappings_buildColumnMappings.mp hm
  obtain ⟨col', hcol', -, hmcol'⟩ := mem_activeMappings_buildColumnMappings.mp hm'
  subst hmcol hmcol'
  obtain ⟨dcol, hget, -⟩ := unwarned_column h hcol
  have hnames : col.name = col'.name := hname
  have hget' := hget
  rw [hnames] at hget'
  exact ⟨hname, by simp [buildColumnMapping, hget, hget']⟩

/-- The new row has the coerced value of every source column. -/
theorem transformRow_get?_column (h : validateSchemaCompatibility source (some destination) = .ok [])
    {row new : Row} {col dcol : ColumnSchema}
    (hnew : transformRow (activeMappings (buildColumnMappings source (some destination))) row =
      .ok new) (hcol : col ∈ source.columns)
    (hget : (columnsByName destination.columns).get? col.name = some dcol) :
    ∃ w, coerce (row.get col.name) dcol.dataType = .ok w ∧ new.get? col.name = some w := by
  obtain ⟨m, hm, hsource, hdest, htype⟩ := active_of_lookup hcol hget
  have hfound := transformRow_get?_of_same (fun m hm m' hm' => active_same h hm hm') hnew hm
  rwa [hsource, hdest, htype] at hfound

/-- A row becomes one that keeps its values just when each of them passes unchanged. -/
theorem row_kept_iff (h : validateSchemaCompatibility source (some destination) = .ok [])
    {row : Row} (hfits : RowFits source row) :
    (∃ new, transformRow (activeMappings (buildColumnMappings source (some destination))) row =
        .ok new ∧ RowKept source destination row new) ↔
      ∀ col ∈ source.columns, ∀ dcol,
        (columnsByName destination.columns).get? col.name = some dcol →
          PassesUnchanged col dcol (row.get col.name) := by
  constructor
  · intro hkept col hcol dcol hget
    obtain ⟨new, hnew, hkeeps⟩ := hkept
    obtain ⟨dcol', hget', hshort⟩ := unwarned_column h hcol
    rw [hget] at hget'
    cases hget'
    obtain ⟨w, hok, hw⟩ := transformRow_get?_column h hnew hcol hget
    obtain ⟨w', hw', hsame, hlength⟩ := hkeeps col hcol
    rw [hw] at hw'
    cases hw'
    rw [← arrives_iff_passes (hfits col hcol) hshort, arrives_iff hok]
    exact ⟨hsame, fun s n hs hn => hlength s dcol n hs hget hn⟩
  · intro hpasses
    have harrives : ∀ col ∈ source.columns, ∃ dcol,
        (columnsByName destination.columns).get? col.name = some dcol ∧
          Arrives dcol (row.get col.name) := by
      intro col hcol
      obtain ⟨dcol, hget, hshort⟩ := unwarned_column h hcol
      have hpass := hpasses col hcol dcol hget
      exact ⟨dcol, hget, (arrives_iff_passes (hfits col hcol) hshort).mpr hpass⟩
    have hcoerced : ∀ m ∈ activeMappings (buildColumnMappings source (some destination)),
        ∃ v, coerce (row.get m.sourceCol) m.destType = .ok v := by
      intro m hm
      obtain ⟨col, hcol, -, hmcol⟩ := mem_activeMappings_buildColumnMappings.mp hm
      obtain ⟨dcol, hget, w, hok, -⟩ := harrives col hcol
      refine ⟨w, ?_⟩
      rw [hmcol]
      simpa [buildColumnMapping, hget] using hok
    obtain ⟨new, hnew⟩ := transformRow_exists hcoerced
    refine ⟨new, hnew, ?_⟩
    intro col hcol
    obtain ⟨dcol, hget, harrive⟩ := harrives col hcol
    obtain ⟨w, hok, hw⟩ := transformRow_get?_column h hnew hcol hget
    obtain ⟨hsame, hlength⟩ := (arrives_iff hok).mp harrive
    refine ⟨w, hw, hsame, ?_⟩
    intro s dcol' n hs hget' hn
    rw [hget] at hget'
    cases hget'
    exact hlength s n hs hn

/-- Where the validator has no warning, a batch of rows that fit the source arrives as it was just
when each value passes between its two columns. -/
theorem unwarned_kept_iff (h : validateSchemaCompatibility source (some destination) = .ok [])
    {rows : List Row} (hfits : ∀ row ∈ rows, RowFits source row) :
    (∃ news, applyMappings rows (buildColumnMappings source (some destination)) = .ok news ∧
      List.Forall₂ (RowKept source destination) rows news) ↔
    ∀ row ∈ rows, ∀ col ∈ source.columns, ∀ dcol,
      (columnsByName destination.columns).get? col.name = some dcol →
        PassesUnchanged col dcol (row.get col.name) := by
  rw [applyMappings, ExceptList.mapM_forall₂_iff]
  exact forall₂_congr fun row hrow => row_kept_iff h (hfits row hrow)

end pairs

private def unlimitedNote : TableSchema where
  name := "notes"
  columns := [{ name := "note", dataType := "VARCHAR" }]

private def shortNote : TableSchema where
  name := "notes"
  columns := [{ name := "note", dataType := "VARCHAR", maxLength := some 3 }]

private def noteRow (text : String) : Row := Dict.ofList [("note", .str text)]

private theorem unlimitedNote_fits (text : String) : RowFits unlimitedNote (noteRow text) := by
  intro col hcol
  cases List.mem_singleton.mp hcol
  intro n hn
  cases hn

theorem unwarned_kept_iff_short :
    ∃ news, applyMappings [noteRow "abc"] (buildColumnMappings unlimitedNote (some shortNote)) =
      .ok news ∧ List.Forall₂ (RowKept unlimitedNote shortNote) [noteRow "abc"] news := by
  have h : validateSchemaCompatibility unlimitedNote (some shortNote) = .ok [] := by decide
  refine (unwarned_kept_iff h fun row hrow => ?_).mpr ?_
  · cases List.mem_singleton.mp hrow
    exact unlimitedNote_fits "abc"
  · intro row hrow col hcol dcol hget
    cases List.mem_singleton.mp hrow
    cases List.mem_singleton.mp hcol
    cases hget
    refine ⟨by decide, ?_⟩
    intro n hn
    cases hn
    exact Or.inr (by decide)

/-- A source without a length and a destination with one: no warning, and the text is too long. -/
theorem unlimited_text_too_long :
    validateSchemaCompatibility unlimitedNote (some shortNote) = .ok [] ∧
    RowFits unlimitedNote (noteRow "abcd") ∧
    ¬ ∃ news, applyMappings [noteRow "abcd"] (buildColumnMappings unlimitedNote (some shortNote)) =
      .ok news ∧ List.Forall₂ (RowKept unlimitedNote shortNote) [noteRow "abcd"] news := by
  refine ⟨by decide, unlimitedNote_fits "abcd", ?_⟩
  intro hkept
  obtain ⟨news, happly, hrel⟩ := hkept
  have hnews : applyMappings [noteRow "abcd"]
      (buildColumnMappings unlimitedNote (some shortNote)) = .ok [noteRow "abcd"] := by decide
  rw [hnews] at happly
  cases happly
  rw [List.forall₂_cons] at hrel
  obtain ⟨w, hw, -, hlength⟩ := hrel.1 _ (List.mem_singleton.mpr rfl)
  cases hw
  exact absurd (hlength "abcd" _ 3 rfl rfl rfl) (by decide)

end DataBridge
