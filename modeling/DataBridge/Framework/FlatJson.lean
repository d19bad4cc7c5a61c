import DataBridge.Framework.Dict

namespace DataBridge.FlatJson

/-- A JSON value that is neither an array, an object nor a float. -/
inductive Scalar where
  | null
  | bool (b : Bool)
  | int (i : Int)
  | str (s : String)
  deriving DecidableEq, Repr

/-- `bool(v)`. -/
def Scalar.truthy : Scalar → Bool
  | .null => false
  | .bool b => b
  | .int i => i ≠ 0
  | .str s => s ≠ ""

/-- A string, or null. -/
def Scalar.ofText (text : Option String) : Scalar := text.elim .null .str

/-- An integer, or null. -/
def Scalar.ofInt (i : Option Int) : Scalar := i.elim .null .int

/-! ## Writing -/

/-- The UTF-16 code units of a character. -/
def units (c : Char) : List Nat :=
  if c.toNat < 0x10000 then [c.toNat]
  else [0xd800 + (c.toNat - 0x10000) / 0x400, 0xdc00 + (c.toNat - 0x10000) % 0x400]

def hex4 (n : Nat) : List Char :=
  [(n / 4096 % 16).digitChar, (n / 256 % 16).digitChar, (n / 16 % 16).digitChar,
    (n % 16).digitChar]

/-- The escapes of one letter, with the code units they stand for. -/
def shortEscapes : List (Nat × Char) :=
  [(34, '"'), (92, '\\'), (8, 'b'), (12, 'f'), (10, 'n'), (13, 'r'), (9, 't')]

def escapeUnit (n : Nat) : List Char :=
  match shortEscapes.lookup n with
  | some e => ['\\', e]
  | none => if 32 ≤ n ∧ n ≤ 126 then [Char.ofNat n] else '\\' :: 'u' :: hex4 n

/-- What follows the opening quote of a string. -/
def stringBody (s : String) : List Char := (s.toList.flatMap units).flatMap escapeUnit ++ ['"']

def intText (i : Int) : List Char :=
  if i < 0 then '-' :: Nat.toDigits 10 i.natAbs else Nat.toDigits 10 i.natAbs

def scalarText : Scalar → List Char
  | .null => ['n', 'u', 'l', 'l']
  | .bool true => ['t', 'r', 'u', 'e']
  | .bool false => ['f', 'a', 'l', 's', 'e']
  | .int i => intText i
  | .str s => '"' :: stringBody s

/-! ## Reading -/

def skipSpace (text : List Char) : List Char :=
  text.dropWhile fun c => c = ' ' ∨ c = '\t' ∨ c = '\n' ∨ c = '\r'

def hexValue (c : Char) : Option Nat :=
  if '0' ≤ c ∧ c ≤ '9' then some (c.toNat - 48)
  else if 'a' ≤ c ∧ c ≤ 'f' then some (c.toNat - 87)
  else if 'A' ≤ c ∧ c ≤ 'F' then some (c.toNat - 55)
  else none

def hexValue4 (a b c d : Char) : Option Nat := do
  let a ← hexValue a
  let b ← hexValue b
  let c ← hexValue c
  let d ← hexValue d
  some (a * 4096 + b * 256 + c * 16 + d)

/-- The code unit of a one-letter escape; `/` may be escaped too. -/
def unescape (e : Char) : Option Nat :=
  if e = '/' then some 47 else (shortEscapes.find? fun p => p.2 = e).map Prod.fst

/-- The code units up to the closing quote, and what follows it. -/
def scanUnits : List Char → Option (List Nat × List Char)
  | '\\' :: 'u' :: a :: b :: c :: d :: rest => do
    let n ← hexValue4 a b c d
    let (us, left) ← scanUnits rest
    some (n :: us, left)
  | '\\' :: e :: rest => do
    let n ← unescape e
    let (us, left) ← scanUnits rest
    some (n :: us, left)
  | '"' :: rest => some ([], rest)
  | c :: rest => if c.toNat < 32 then none else (scanUnits rest).map fun p => (c.toNat :: p.1, p.2)
  | [] => none

def ofUnit (n : Nat) : Option Char := if n.isValidChar then some (Char.ofNat n) else none

/-- Surrogate pairs joined. A lone surrogate is no character of a `String`. -/
def joinUnits : List Nat → Option (List Char)
  | [] => some []
  | [n] => do some [← ofUnit n]
  | hi :: lo :: rest =>
    if (0xd800 ≤ hi ∧ hi ≤ 0xdbff) ∧ 0xdc00 ≤ lo ∧ lo ≤ 0xdfff then do
      some (Char.ofNat (0x10000 + (hi - 0xd800) * 0x400 + (lo - 0xdc00)) :: (← joinUnits rest))
    else do
      let c ← ofUnit hi
      some (c :: (← joinUnits (lo :: rest)))

def scanString (text : List Char) : Option (String × List Char) := do
  let (us, rest) ← scanUnits text
  let cs ← joinUnits us
  some (String.ofList cs, rest)

/-- A number without a leading zero, fraction or exponent. -/
def scanNat (text : List Char) : Option (Nat × List Char) :=
  match text with
  | '0' :: rest => some (0, rest)
  | _ =>
    let digits := text.takeWhile Char.isDigit
    if digits = [] then none
    else some (Nat.ofDigitChars 10 digits 0, text.dropWhile Char.isDigit)

def scanScalar : List Char → Option (Scalar × List Char)
  | '"' :: rest => (scanString rest).map fun p => (.str p.1, p.2)
  | 'n' :: 'u' :: 'l' :: 'l' :: rest => some (.null, rest)
  | 't' :: 'r' :: 'u' :: 'e' :: rest => some (.bool true, rest)
  | 'f' :: 'a' :: 'l' :: 's' :: 'e' :: rest => some (.bool false, rest)
  | '-' :: rest => (scanNat rest).map fun p => (.int (-p.1), p.2)
  | text => (scanNat text).map fun p => (.int p.1, p.2)

/-! ## What was written is read back -/

theorem hexValue_digitChar : ∀ d < 16, hexValue d.digitChar = some d := by decide

theorem hexValue4_digits (n : Nat) (h : n < 0x10000) :
    hexValue4 (n / 4096 % 16).digitChar (n / 256 % 16).digitChar (n / 16 % 16).digitChar
      (n % 16).digitChar = some n := by
  have ha := hexValue_digitChar (n / 4096 % 16) (by omega)
  have hb := hexValue_digitChar (n / 256 % 16) (by omega)
  have hc := hexValue_digitChar (n / 16 % 16) (by omega)
  have hd := hexValue_digitChar (n % 16) (by omega)
  have hsum : n / 4096 % 16 * 4096 + n / 256 % 16 * 256 + n / 16 % 16 * 16 + n % 16 = n := by omega
  simp [hexValue4, ha, hb, hc, hd, hsum]

/-- A character that needs no escape. -/
theorem scanUnits_plain (c : Char) (hq : c ≠ '"') (hb : c ≠ '\\') (hc : 32 ≤ c.toNat)
    (rest : List Char) :
    scanUnits (c :: rest) = (scanUnits rest).map fun p => (c.toNat :: p.1, p.2) := by
  rw [scanUnits.eq_4 c rest (fun _ _ _ _ _ h => absurd h hb) (fun _ _ h => absurd h hb) hq,
    if_neg (by omega)]

theorem scanUnits_short (n : Nat) (e : Char) (h : (n, e) ∈ shortEscapes) (rest : List Char) :
    scanUnits ('\\' :: e :: rest) = (scanUnits rest).map fun p => (n :: p.1, p.2) := by
  simp only [shortEscapes, List.mem_cons, Prod.mk.injEq, List.not_mem_nil, or_false] at h
  have hn : unescape e = some n ∧ e ≠ 'u' := by
    rcases h with ⟨rfl, rfl⟩ | ⟨rfl, rfl⟩ | ⟨rfl, rfl⟩ | ⟨rfl, rfl⟩ | ⟨rfl, rfl⟩ | ⟨rfl, rfl⟩ |
      ⟨rfl, rfl⟩ <;> decide
  rw [scanUnits.eq_2 e rest (fun _ _ _ _ _ he => absurd he hn.2), hn.1]
  cases scanUnits rest <;> rfl

theorem scanUnits_hex (n : Nat) (h : n < 0x10000) (rest : List Char) :
    scanUnits ('\\' :: 'u' :: (hex4 n ++ rest)) =
      (scanUnits rest).map fun p => (n :: p.1, p.2) := by
  have hn := hexValue4_digits n h
  simp only [hex4, List.cons_append, List.nil_append, scanUnits.eq_1, hn]
  cases scanUnits rest <;> rfl

theorem toNat_ofNat (n : Nat) (h : n.isValidChar) : (Char.ofNat n).toNat = n := by
  rw [Char.ofNat, dif_pos h]
  rfl

theorem scanUnits_escapeUnit (n : Nat) (h : n < 0x10000) (rest : List Char) :
    scanUnits (escapeUnit n ++ rest) = (scanUnits rest).map fun p => (n :: p.1, p.2) := by
  unfold escapeUnit
  cases he : shortEscapes.lookup n with
  | some e =>
    have hmem : (n, e) ∈ shortEscapes := by
      obtain ⟨l, r, heq, -⟩ := List.lookup_eq_some_iff.mp he
      rw [heq]
      simp
    exact scanUnits_short n e hmem rest
  | none =>
    by_cases hp : 32 ≤ n ∧ n ≤ 126
    · have hn := toNat_ofNat n (Or.inl (by omega))
      have hq : Char.ofNat n ≠ '"' := by
        intro heq
        rw [heq] at hn
        subst hn
        cases he
      have hb : Char.ofNat n ≠ '\\' := by
        intro heq
        rw [heq] at hn
        subst hn
        cases he
      have hplain := scanUnits_plain (Char.ofNat n) hq hb (by omega) rest
      rw [hn] at hplain
      simp only [if_pos hp]
      exact hplain
    · simp only [if_neg hp]
      exact scanUnits_hex n h rest

theorem scanUnits_flatMap (us : List Nat) (h : ∀ n ∈ us, n < 0x10000) (rest : List Char) :
    scanUnits (us.flatMap escapeUnit ++ '"' :: rest) = some (us, rest) := by
  induction us with
  | nil => rfl
  | cons n us ih =>
    rw [List.flatMap_cons, List.append_assoc, scanUnits_escapeUnit n (h n (by simp)),
      ih fun m hm => h m (by simp [hm])]
    rfl

theorem toNat_lt (c : Char) : c.toNat < 0x110000 := by
  rcases c.valid with hlow | hhigh
  · exact Nat.lt_trans hlow (by decide)
  · exact hhigh.2

theorem units_lt (c : Char) : ∀ n ∈ units c, n < 0x10000 := by
  have hmax := toNat_lt c
  intro n hn
  unfold units at hn
  split at hn
  · rename_i hsmall
    rw [List.mem_singleton.mp hn]
    exact hsmall
  · simp only [List.mem_cons, List.not_mem_nil, or_false] at hn
    omega

theorem ofUnit_toNat (c : Char) : ofUnit c.toNat = some c := by
  have hc : c.toNat.isValidChar := c.valid
  rw [ofUnit, if_pos hc, Char.ofNat_toNat]

/-- No character is a surrogate, so a pair comes from one character only. -/
theorem joinUnits_units (c : Char) (us : List Nat) :
    joinUnits (units c ++ us) = (joinUnits us).map (c :: ·) := by
  have hc : c.toNat.isValidChar := c.valid
  have hmax := toNat_lt c
  unfold units
  split
  · have hone := ofUnit_toNat c
    cases us with
    | nil => simp [joinUnits, hone]
    | cons lo us =>
      have hlow : ¬ ((0xd800 ≤ c.toNat ∧ c.toNat ≤ 0xdbff) ∧ 0xdc00 ≤ lo ∧ lo ≤ 0xdfff) := by
        intro h
        obtain ⟨⟨hge, hle⟩, -⟩ := h
        rcases hc with hlt | ⟨hgt, -⟩ <;> omega
      rw [List.singleton_append, joinUnits, if_neg hlow, hone]
      cases joinUnits (lo :: us) <;> rfl
  · have hpair : (0xd800 ≤ 0xd800 + (c.toNat - 0x10000) / 0x400 ∧
        0xd800 + (c.toNat - 0x10000) / 0x400 ≤ 0xdbff) ∧
        0xdc00 ≤ 0xdc00 + (c.toNat - 0x10000) % 0x400 ∧
        0xdc00 + (c.toNat - 0x10000) % 0x400 ≤ 0xdfff := by omega
    have hsum : 0x10000 + (0xd800 + (c.toNat - 0x10000) / 0x400 - 0xd800) * 0x400 +
        (0xdc00 + (c.toNat - 0x10000) % 0x400 - 0xdc00) = c.toNat := by omega
    rw [List.cons_append, List.singleton_append, joinUnits, if_pos hpair, hsum, Char.ofNat_toNat]
    cases joinUnits us <;> rfl

theorem joinUnits_flatMap (cs : List Char) : joinUnits (cs.flatMap units) = some cs := by
  induction cs with
  | nil => rfl
  | cons c cs ih =>
    rw [List.flatMap_cons, joinUnits_units, ih]
    rfl

theorem scanString_stringBody (s : String) (rest : List Char) :
    scanString (stringBody s ++ rest) = some (s, rest) := by
  have hunits : ∀ n ∈ s.toList.flatMap units, n < 0x10000 := by
    intro n hn
    obtain ⟨c, -, hc⟩ := List.mem_flatMap.mp hn
    exact units_lt c n hc
  have hscan := scanUnits_flatMap _ hunits rest
  have hjoin := joinUnits_flatMap s.toList
  rw [scanString, stringBody, List.append_assoc, List.singleton_append, hscan]
  simp [hjoin]

/-- Only zero is written with a leading zero. -/
theorem head_toDigits (n : Nat) (h : 0 < n) : (Nat.toDigits 10 n).head? ≠ some '0' := by
  induction n using Nat.strongRecOn with
  | ind n ih =>
    by_cases hn : n < 10
    · have hdigit : ∀ d < 10, 0 < d → d.digitChar ≠ '0' := by decide
      rw [Nat.toDigits_of_lt_base hn]
      exact fun heq => hdigit n hn h (Option.some.inj heq)
    · have hbase : 10 ≤ n := Nat.le_of_not_lt hn
      have hprev := ih (n / 10) (by omega) (by omega)
      have hne : Nat.toDigits 10 (n / 10) ≠ [] := Nat.toDigits_ne_nil
      rw [Nat.toDigits_of_base_le (by decide) hbase, List.head?_append_of_ne_nil _ hne]
      exact hprev

theorem toDigits_cons (n : Nat) : ∃ d ds, Nat.toDigits 10 n = d :: ds ∧ d.isDigit = true := by
  have hne : Nat.toDigits 10 n ≠ [] := Nat.toDigits_ne_nil
  obtain ⟨d, ds, hd⟩ := List.exists_cons_of_ne_nil hne
  have hmem : d ∈ Nat.toDigits 10 n := hd ▸ List.mem_cons_self
  exact ⟨d, ds, hd, Nat.isDigit_of_mem_toDigits (by decide) (by decide) hmem⟩

/-- The texts a number may be followed by. -/
def Stops (rest : List Char) : Prop := ∀ c ∈ rest.head?, c.isDigit = false

theorem stops_cons (c : Char) (rest : List Char) (h : c.isDigit = false) : Stops (c :: rest) := by
  intro d hparts
  obtain ⟨rfl⟩ := hparts
  exact h

theorem scanNat_toDigits (n : Nat) (rest : List Char) (h : Stops rest) :
    scanNat (Nat.toDigits 10 n ++ rest) = some (n, rest) := by
  by_cases hzero : n = 0
  · subst hzero
    rfl
  · have hdigits : ∀ c ∈ Nat.toDigits 10 n, c.isDigit = true := fun c hc =>
      Nat.isDigit_of_mem_toDigits (by decide) (by decide) hc
    have hne : Nat.toDigits 10 n ≠ [] := Nat.toDigits_ne_nil
    have hhead := head_toDigits n (by omega)
    have htake : rest.takeWhile Char.isDigit = [] ∧ rest.dropWhile Char.isDigit = rest := by
      cases rest with
      | nil => exact ⟨rfl, rfl⟩
      | cons c rest =>
        have hc := h c rfl
        simp [hc]
    have hvalue : Nat.ofDigitChars 10 (Nat.toDigits 10 n) 0 = n := Nat.ofDigitChars_ten_toDigits
    unfold scanNat
    split
    · rename_i left heq
      obtain ⟨d, ds, hd, -⟩ := toDigits_cons n
      rw [hd] at heq hhead
      exact absurd (congrArg some (List.cons.inj heq).1) hhead
    · rw [List.takeWhile_append_of_pos hdigits, List.dropWhile_append_of_pos hdigits, htake.1,
        htake.2, List.append_nil, if_neg hne, hvalue]

theorem scanScalar_digit (c : Char) (rest : List Char) (h : c.isDigit = true) :
    scanScalar (c :: rest) = (scanNat (c :: rest)).map fun p => (.int p.1, p.2) := by
  have hne : ∀ d : Char, d.isDigit = false → c ≠ d := by
    intro d hd hsame
    subst hsame
    rw [h] at hd
    cases hd
  rw [scanScalar.eq_6]
  all_goals intros
  all_goals rename_i heq
  all_goals exact absurd (List.cons.inj heq).1 (hne _ (by decide))

theorem scanScalar_scalarText (v : Scalar) (rest : List Char) (h : Stops rest) :
    scanScalar (scalarText v ++ rest) = some (v, rest) := by
  cases v with
  | null => rfl
  | bool b => cases b <;> rfl
  | int i =>
    have hscan := scanNat_toDigits i.natAbs rest h
    rw [scalarText, intText]
    by_cases hneg : i < 0
    · have hi : -(i.natAbs : Int) = i := by omega
      rw [if_pos hneg, List.cons_append, scanScalar, hscan, Option.map_some, hi]
    · have hi : (i.natAbs : Int) = i := by omega
      obtain ⟨d, ds, hd, hdigit⟩ := toDigits_cons i.natAbs
      rw [hd] at hscan
      rw [if_neg hneg, hd, List.cons_append, scanScalar_digit d _ hdigit, ← List.cons_append, hscan,
        Option.map_some, hi]
  | str s =>
    have hscan := scanString_stringBody s rest
    rw [scalarText, List.cons_append, scanScalar, hscan, Option.map_some]

/-- What a text that starts with no space has in front. -/
theorem skipSpace_cons (c : Char) (rest : List Char) (h : c ∉ [' ', '\t', '\n', '\r']) :
    skipSpace (c :: rest) = c :: rest := by
  have hc : ¬ (c = ' ' ∨ c = '\t' ∨ c = '\n' ∨ c = '\r') := by simpa using h
  rw [skipSpace, List.dropWhile_cons_of_neg]
  simpa using hc

end DataBridge.FlatJson
