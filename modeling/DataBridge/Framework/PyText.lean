import Mathlib.Data.List.Basic
import Mathlib.Tactic.Common

namespace DataBridge.PyText

/-- Upper case of one character. Outside ASCII only the characters whose upper case is plain
ASCII are mapped; no comparison with an ASCII word tells the others from themselves. -/
def upperChar (c : Char) : List Char :=
  match c with
  | 'ß' => ['S','S']
  | 'ı' => ['I']
  | 'ſ' => ['S']
  | 'ﬀ' => ['F','F']
  | 'ﬁ' => ['F','I']
  | 'ﬂ' => ['F','L']
  | 'ﬃ' => ['F','F','I']
  | 'ﬄ' => ['F','F','L']
  | 'ﬅ' => ['S','T']
  | 'ﬆ' => ['S','T']
  | c => [c.toUpper]

/-- `s.upper()`. -/
def upper (s : String) : String := String.ofList (s.toList.flatMap upperChar)

/-- `s.lower()`; the Kelvin sign is the one other character with an ASCII lower case. -/
def lower (s : String) : String :=
  String.ofList (s.toList.map fun c => if c = '\u212a' then 'k' else c.toLower)

/-- `s.split(c)[0]`. -/
def before (c : Char) (s : String) : String := String.ofList (s.toList.takeWhile (· ≠ c))

/-- `c.isspace()`. -/
def isSpace (c : Char) : Bool :=
  (0x9 ≤ c.toNat ∧ c.toNat ≤ 0xd) ∨ (0x1c ≤ c.toNat ∧ c.toNat ≤ 0x20) ∨
    (0x2000 ≤ c.toNat ∧ c.toNat ≤ 0x200a) ∨
    c.toNat ∈ [0x85, 0xa0, 0x1680, 0x2028, 0x2029, 0x202f, 0x205f, 0x3000]

/-- `s.strip()`. -/
def strip (s : String) : String :=
  String.ofList ((s.toList.dropWhile isSpace).reverse.dropWhile isSpace).reverse

/-- `s[:n]`. -/
def first (n : Nat) (s : String) : String := String.ofList (s.toList.take n)

/-- `', '.join(parts)`. -/
def commaJoin (parts : List String) : String := ", ".intercalate parts

/-- `old` replaced by `new` from the left, `limit` times at most; the next `skip` characters belong
to a match that has been replaced. -/
def replaceFrom (old new : List Char) : (limit : Option Nat) → (skip : Nat) → List Char → List Char
  | _, _, [] => []
  | limit, skip + 1, _ :: cs => replaceFrom old new limit skip cs
  | limit, 0, c :: cs =>
    if limit ≠ some 0 ∧ old.isPrefixOf (c :: cs) then
      new ++ replaceFrom old new (limit.map (· - 1)) (old.length - 1) cs
    else c :: replaceFrom old new limit 0 cs

/-- `s.replace(old, new)`, or `s.replace(old, new, limit)`; `old` is not empty. -/
def replace (old new : String) (limit : Option Nat) (s : String) : String :=
  String.ofList (replaceFrom old.toList new.toList limit 0 s.toList)

example : before '(' (upper "varchar(20)") = "VARCHAR" := by decide

/-- Where no match is replaced any more the rest stays as it is. -/
theorem replaceFrom_none_left (old new : List Char) (skip : Nat) (s : List Char) :
    replaceFrom old new (some 0) skip s = s.drop skip := by
  induction s generalizing skip with
  | nil => rw [replaceFrom, List.drop_nil]
  | cons c s ih =>
    cases skip with
    | zero => rw [replaceFrom, if_neg (fun h => h.1 rfl), ih, List.drop_zero, List.drop_zero]
    | succ skip => rw [replaceFrom, ih, List.drop_succ_cons]

theorem replace_prefix_once {old : String} (hold : old.toList ≠ []) (new : String)
    (rest : List Char) :
    replace old new (some 1) (String.ofList (old.toList ++ rest)) =
      String.ofList (new.toList ++ rest) := by
  obtain ⟨c, cs, hcons⟩ := List.exists_cons_of_ne_nil hold
  have hmatch : (c :: cs).isPrefixOf (c :: (cs ++ rest)) = true :=
    List.isPrefixOf_iff_prefix.mpr (List.prefix_append (c :: cs) rest)
  rw [replace, String.toList_ofList, hcons, List.cons_append, replaceFrom,
    if_pos ⟨by simp, hmatch⟩]
  have hskip : cs.length = (c :: cs).length - 1 := rfl
  rw [Option.map_some, replaceFrom_none_left, ← hskip, List.drop_left]

/-- `s.isascii()`. -/
def isAscii (s : String) : Bool := s.toList.all fun c => c.toNat < 128

/-- A condition on the characters of a text, decided one by one. -/
theorem forall_mem_of_all {P : Char → Prop} [DecidablePred P] {s : List Char}
    (h : s.all (fun c => P c) = true) : ∀ c ∈ s, P c :=
  fun c hc => of_decide_eq_true (List.all_eq_true.mp h c hc)

/-- What the 128 ASCII characters have, every ASCII character has. -/
theorem forall_ascii {P : Char → Prop} (h : ∀ n < 128, P (Char.ofNat n)) {c : Char}
    (hc : c.toNat < 128) : P c := by
  have hn := h c.toNat hc
  rwa [Char.ofNat_toNat] at hn

theorem upperChar_ascii {c : Char} (h : c.toNat < 128) : upperChar c = [c.toUpper] :=
  forall_ascii (P := fun c => upperChar c = [c.toUpper]) (by decide) h

theorem toUpper_ascii {c : Char} (h : c.toNat < 128) : c.toUpper.toNat < 128 :=
  forall_ascii (P := fun c => c.toUpper.toNat < 128) (by decide) h

theorem toUpper_toUpper {c : Char} (h : c.toNat < 128) : c.toUpper.toUpper = c.toUpper :=
  forall_ascii (P := fun c => c.toUpper.toUpper = c.toUpper) (by decide) h

theorem toLower_toUpper {c : Char} (h : c.toNat < 128) : c.toUpper.toLower = c.toLower :=
  forall_ascii (P := fun c => c.toUpper.toLower = c.toLower) (by decide) h

theorem toNat_lt_of_isAscii {s : String} (h : isAscii s) {c : Char} (hc : c ∈ s.toList) :
    c.toNat < 128 :=
  of_decide_eq_true (List.all_eq_true.mp h c hc)

theorem toList_upper {s : String} (h : isAscii s) : (upper s).toList = s.toList.map Char.toUpper := by
  have hc : ∀ c ∈ s.toList, upperChar c = [c.toUpper] :=
    fun c hc => upperChar_ascii (toNat_lt_of_isAscii h hc)
  rw [upper, String.toList_ofList, List.flatMap_congr hc, ← List.map_eq_flatMap]

/-- For ASCII, lower case forgets that the text was made upper case. -/
theorem lower_upper {s : String} (h : isAscii s) : lower (upper s) = lower s := by
  rw [lower, lower, toList_upper h, List.map_map]
  congr 1
  apply List.map_congr_left
  intro c hc
  have hn := toNat_lt_of_isAscii h hc
  have hkelvin : ∀ d : Char, d.toNat < 128 → d ≠ '\u212a' := by
    intro d hd he
    rw [he] at hd
    exact absurd hd (by decide)
  rw [Function.comp_apply, if_neg (hkelvin _ (toUpper_ascii hn)), if_neg (hkelvin c hn)]
  exact toLower_toUpper hn

theorem upper_eq_empty_iff {s : String} (h : isAscii s) : upper s = "" ↔ s = "" := by
  rw [← String.toList_inj, ← String.toList_inj, toList_upper h]
  simp

/-- Cutting at an ASCII character that no case conversion makes or changes. -/
theorem takeWhile_flatMap {f : Char → List Char} {p : Char → Bool}
    (hkeep : ∀ c, p c = true → ∀ d ∈ f c, p d = true)
    (hcut : ∀ c, p c = false → ∃ d ds, f c = d :: ds ∧ p d = false) (cs : List Char) :
    (cs.flatMap f).takeWhile p = (cs.takeWhile p).flatMap f := by
  induction cs with
  | nil => rfl
  | cons c cs ih =>
    rw [List.flatMap_cons]
    cases hp : p c with
    | true =>
      rw [List.takeWhile_append_of_pos (hkeep c hp), ih, List.takeWhile_cons, if_pos hp,
        List.flatMap_cons]
    | false =>
      obtain ⟨d, ds, hf, hd⟩ := hcut c hp
      rw [hf, List.takeWhile_cons, List.cons_append, List.takeWhile_cons, hd, hp]
      rfl

/-- The characters outside ASCII whose upper case is ASCII. -/
def asciiCapitals : List Char := ['ß', 'ı', 'ſ', 'ﬀ', 'ﬁ', 'ﬂ', 'ﬃ', 'ﬄ', 'ﬅ', 'ﬆ']

theorem upperChar_of_notMem {c : Char} (h : c ∉ asciiCapitals) : upperChar c = [c.toUpper] := by
  unfold upperChar
  split
  all_goals first | rfl | exact absurd (by decide) h

theorem isAlpha_eq (c : Char) : c.isAlpha = (c.isUpper || c.isLower) := rfl

theorem isUpper_eq (c : Char) :
    c.isUpper = decide (c.val ≥ 'A'.val ∧ c.val ≤ 'Z'.val) := rfl

theorem isLower_eq (c : Char) :
    c.isLower = (decide (c.val ≥ 'a'.val) && decide (c.val ≤ 'z'.val)) := rfl

theorem toUpper_cases (c : Char) : c.toUpper = c ∨ c.isLower = true := by
  unfold Char.toUpper
  split
  · rename_i h
    exact Or.inr (by simpa [isLower_eq] using h)
  · exact Or.inl rfl

/-- Only letters and the ligatures become capitals. -/
theorem alpha_of_upperChar {c : Char} (h : ∀ d ∈ upperChar c, d.isUpper = true) :
    c.isAlpha = true ∨ c ∈ asciiCapitals := by
  by_cases hmem : c ∈ asciiCapitals
  · exact Or.inr hmem
  apply Or.inl
  rw [upperChar_of_notMem hmem] at h
  have hupper := h c.toUpper (by simp)
  rcases toUpper_cases c with hsame | hlower
  · rw [hsame] at hupper
    simp [isAlpha_eq, hupper]
  · simp [isAlpha_eq, hlower]

theorem ascii_of_isAlpha {c : Char} (h : c.isAlpha = true) : c.toNat < 128 := by
  have hval : c.val.toNat ≤ 'z'.val.toNat := by
    simp only [isAlpha_eq, isUpper_eq, isLower_eq, Bool.or_eq_true, Bool.and_eq_true,
      decide_eq_true_eq] at h
    rcases h with hupper | hlower
    · exact Nat.le_trans (UInt32.le_iff_toNat_le.mp hupper.2) (by decide)
    · exact UInt32.le_iff_toNat_le.mp hlower.2
  exact Nat.lt_of_le_of_lt hval (by decide)

theorem flatMap_upperChar (c : Char) : (upperChar c).flatMap upperChar = upperChar c := by
  by_cases hmem : c ∈ asciiCapitals
  · have hall : (asciiCapitals.all fun c =>
        decide ((upperChar c).flatMap upperChar = upperChar c)) := by decide
    exact of_decide_eq_true (List.all_eq_true.mp hall c hmem)
  · rw [upperChar_of_notMem hmem, List.flatMap_singleton]
    rcases toUpper_cases c with hsame | hlower
    · rw [hsame, upperChar_of_notMem hmem, hsame]
    · have hascii := ascii_of_isAlpha (c := c) (by simp [isAlpha_eq, hlower])
      rw [upperChar_ascii (toUpper_ascii hascii), toUpper_toUpper hascii]

theorem upper_upper (s : String) : upper (upper s) = upper s := by
  rw [upper, upper, String.toList_ofList, List.flatMap_assoc,
    List.flatMap_congr fun c _ => flatMap_upperChar c]

theorem toUpper_eq_paren {c : Char} (h : c.toUpper = '(') : c = '(' := by
  rcases toUpper_cases c with hsame | hlower
  · rw [← hsame, h]
  · have hascii := ascii_of_isAlpha (c := c) (by simp [isAlpha_eq, hlower])
    exact forall_ascii (P := fun c => c.toUpper = '(' → c = '(') (by decide) hascii h

/-- Lower case of one character. -/
def lowerChar (c : Char) : Char := if c = '\u212a' then 'k' else c.toLower

theorem lower_eq (s : String) : lower s = String.ofList (s.toList.map lowerChar) := rfl

theorem toLower_cases (c : Char) : c.toLower = c ∨ c.isUpper = true := by
  unfold Char.toLower
  split
  · rename_i h
    exact Or.inr (by simpa [isUpper_eq] using h)
  · exact Or.inl rfl

theorem lowerChar_eq_paren {c : Char} : lowerChar c = '(' ↔ c = '(' := by
  constructor
  · intro h
    unfold lowerChar at h
    split at h
    · cases h
    · rcases toLower_cases c with hsame | hupper
      · rw [← hsame, h]
      · have hascii := ascii_of_isAlpha (c := c) (by simp [isAlpha_eq, hupper])
        exact forall_ascii (P := fun c => c.toLower = '(' → c = '(') (by decide) hascii h
  · intro h
    subst h
    decide

/-- Cutting at a parenthesis and making upper case commute. -/
theorem before_upper (s : String) : before '(' (upper s) = upper (before '(' s) := by
  have hcut : ∀ c : Char, decide (c ≠ '(') = false → ∃ d ds, upperChar c = d :: ds ∧
      decide (d ≠ '(') = false := by
    intro c hc
    have heq : c = '(' := by simpa using hc
    subst heq
    exact ⟨'(', [], by decide, by decide⟩
  have hkeep : ∀ c : Char, decide (c ≠ '(') = true → ∀ d ∈ upperChar c, decide (d ≠ '(') = true := by
    intro c hc d hd
    have hne : c ≠ '(' := by simpa using hc
    by_cases hmem : c ∈ asciiCapitals
    · have hall : (asciiCapitals.all fun c => (upperChar c).all fun d => decide (d ≠ '(')) := by
        decide
      exact List.all_eq_true.mp (List.all_eq_true.mp hall c hmem) d hd
    · rw [upperChar_of_notMem hmem, List.mem_singleton] at hd
      subst hd
      exact decide_eq_true fun heq => hne (toUpper_eq_paren heq)
  rw [before, before, upper, upper, String.toList_ofList, String.toList_ofList,
    takeWhile_flatMap hkeep hcut]

theorem before_lower (s : String) : before '(' (lower s) = lower (before '(' s) := by
  have hsame : ((fun c : Char => decide (c ≠ '(')) ∘ lowerChar) = fun c => decide (c ≠ '(') := by
    funext c
    simp [lowerChar_eq_paren]
  rw [before, before, lower_eq, lower_eq, String.toList_ofList, String.toList_ofList,
    List.takeWhile_map, hsame]

theorem strip_of_noSpace {s : String} (h : ∀ c ∈ s.toList, isSpace c = false) : strip s = s := by
  have hdrop : ∀ cs : List Char, (∀ c ∈ cs, isSpace c = false) → cs.dropWhile isSpace = cs := by
    intro cs hcs
    cases cs with
    | nil => rfl
    | cons c cs => simp [hcs c (by simp)]
  rw [strip, hdrop _ h, hdrop _ (by simpa using h), List.reverse_reverse, String.ofList_toList]

theorem mem_upper {s : String} {c d : Char} (hc : c ∈ s.toList) (hd : d ∈ upperChar c) :
    d ∈ (upper s).toList := by
  rw [upper, String.toList_ofList]
  exact List.mem_flatMap.mpr ⟨c, hc, hd⟩

/-- A text whose upper case is all capitals is made lower case without blanks. -/
theorem strip_lower {s : String} (h : ∀ d ∈ (upper s).toList, d.isUpper = true) :
    strip (lower s) = lower s := by
  apply strip_of_noSpace
  intro d hd
  rw [lower_eq, String.toList_ofList] at hd
  obtain ⟨c, hc, rfl⟩ := List.mem_map.mp hd
  have hletters : ∀ d ∈ upperChar c, d.isUpper = true := by
    intro d hd
    exact h d (mem_upper hc hd)
  rcases alpha_of_upperChar hletters with halpha | hmem
  · exact forall_ascii (P := fun c => c.isAlpha = true → isSpace (lowerChar c) = false) (by decide)
      (ascii_of_isAlpha halpha) halpha
  · have hall : (asciiCapitals.all fun c => isSpace (lowerChar c) == false) := by decide
    exact eq_of_beq (List.all_eq_true.mp hall c hmem)

/-- A text whose upper case is all capitals and whose lower case is ASCII is ASCII. -/
theorem isAscii_of_cases {s : String} (h : ∀ d ∈ (upper s).toList, d.isUpper = true)
    (hl : isAscii (lower s) = true) : isAscii s = true := by
  apply List.all_eq_true.mpr
  intro c hc
  have hletters : ∀ d ∈ upperChar c, d.isUpper = true := by
    intro d hd
    exact h d (mem_upper hc hd)
  rcases alpha_of_upperChar hletters with halpha | hmem
  · exact decide_eq_true (ascii_of_isAlpha halpha)
  · have hall : (asciiCapitals.all fun c => decide (¬ (lowerChar c).toNat < 128)) := by decide
    have hlower : lowerChar c ∈ (lower s).toList := by
      rw [lower_eq, String.toList_ofList]
      exact List.mem_map_of_mem hc
    exact absurd (toNat_lt_of_isAscii hl hlower)
      (of_decide_eq_true (List.all_eq_true.mp hall c hmem))

end DataBridge.PyText
