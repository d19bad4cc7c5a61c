import DataBridge.Framework.PyUrl
import Mathlib.Algebra.GroupWithZero.Nat
import Mathlib.Data.List.Infix

namespace DataBridge.StandardUrl

open PyUrl (partition rpartition)

/-! ## Percent-encoding -/

/-- The text in UTF-8. -/
def octets (s : List Char) : List UInt8 := s.flatMap String.utf8EncodeChar

def hexValue (c : Char) : Option Nat :=
  if c.isDigit then some (c.toNat - '0'.toNat)
  else if 'A' ≤ c ∧ c ≤ 'F' then some (c.toNat - 'A'.toNat + 10)
  else if 'a' ≤ c ∧ c ≤ 'f' then some (c.toNat - 'a'.toNat + 10)
  else none

/-- The octets a component stands for. -/
def percentDecode : List Char → List UInt8
  | '%' :: high :: low :: rest =>
    match hexValue high, hexValue low with
    | some a, some b => UInt8.ofNat (16 * a + b) :: percentDecode rest
    | _, _ => String.utf8EncodeChar '%' ++ percentDecode (high :: low :: rest)
  | c :: rest => String.utf8EncodeChar c ++ percentDecode rest
  | [] => []

/-- A percent sign with two hexadecimal digits after it. -/
def HasEscape (s : List Char) : Prop :=
  ∃ high low, (hexValue high).isSome ∧ (hexValue low).isSome ∧ ['%', high, low] <:+: s

theorem noEscape_of_notMem {s : List Char} (h : '%' ∉ s) : ¬ HasEscape s := by
  intro hescape
  obtain ⟨high, low, -, -, hsub⟩ := hescape
  exact h (hsub.subset (by simp))

theorem octets_cons (c : Char) (s : List Char) :
    octets (c :: s) = String.utf8EncodeChar c ++ octets s := rfl

theorem octets_append (s t : List Char) : octets (s ++ t) = octets s ++ octets t :=
  List.flatMap_append

theorem octets_injective : Function.Injective octets := by
  intro s t h
  have hbytes : s.utf8Encode = t.utf8Encode := congrArg List.toByteArray h
  have hsome : some s.toArray = some t.toArray := by
    rw [← List.utf8Decode?_utf8Encode, ← List.utf8Decode?_utf8Encode, hbytes]
  simpa using hsome

theorem utf8EncodeChar_pos (c : Char) : 0 < (String.utf8EncodeChar c).length := by
  rw [String.length_utf8EncodeChar]
  exact Char.utf8Size_pos c

/-- An escape in a longer text is at its head or in its tail. -/
theorem hasEscape_cons_iff {c : Char} {s : List Char} :
    HasEscape (c :: s) ↔ HasEscape s ∨ ∃ high low rest, c = '%' ∧ s = high :: low :: rest ∧
      (hexValue high).isSome ∧ (hexValue low).isSome := by
  constructor
  · intro h
    obtain ⟨high, low, hhigh, hlow, hsub⟩ := h
    rcases List.infix_cons_iff.mp hsub with hstart | htail
    · obtain ⟨rest, hrest⟩ := hstart
      cases hrest
      exact Or.inr ⟨high, low, rest, rfl, rfl, hhigh, hlow⟩
    · exact Or.inl ⟨high, low, hhigh, hlow, htail⟩
  · intro h
    rcases h with htail | hhead
    · obtain ⟨high, low, hhigh, hlow, hsub⟩ := htail
      exact ⟨high, low, hhigh, hlow, List.infix_cons_iff.mpr (Or.inr hsub)⟩
    · obtain ⟨high, low, rest, rfl, rfl, hhigh, hlow⟩ := hhead
      exact ⟨high, low, hhigh, hlow, List.infix_cons_iff.mpr (Or.inl ⟨rest, rfl⟩)⟩

/-- What a text stands for, against the text itself. -/
def PlainOrShorter (s : List Char) (meaning : List UInt8) : Prop :=
  ¬ HasEscape s ∧ meaning = octets s ∨ HasEscape s ∧ meaning.length < (octets s).length

/-- A character at which no escape starts changes nothing. -/
theorem plainOrShorter_cons {c : Char} {s : List Char} {meaning : List UInt8}
    (hescape : HasEscape (c :: s) ↔ HasEscape s) (h : PlainOrShorter s meaning) :
    PlainOrShorter (c :: s) (String.utf8EncodeChar c ++ meaning) := by
  unfold PlainOrShorter
  rw [hescape, octets_cons]
  rcases h with hplain | hshorter
  · exact Or.inl ⟨hplain.1, by rw [hplain.2]⟩
  · have hlt := hshorter.2
    exact Or.inr ⟨hshorter.1, by simp only [List.length_append]; omega⟩

/-- A text without an escape stands for itself; one with an escape is longer than its meaning. -/
theorem plainOrShorter_percentDecode (s : List Char) : PlainOrShorter s (percentDecode s) := by
  fun_induction percentDecode s with
  | case1 high low rest a b hlow hhigh ih =>
    have hle : (percentDecode rest).length ≤ (octets rest).length := by
      rcases ih with heq | hlt
      · exact Nat.le_of_eq (congrArg List.length heq.2)
      · exact Nat.le_of_lt hlt.2
    have hhead : HasEscape ('%' :: high :: low :: rest) :=
      hasEscape_cons_iff.mpr (Or.inr ⟨high, low, rest, rfl, rfl, by simp [hhigh], by simp [hlow]⟩)
    have hpos := utf8EncodeChar_pos '%'
    have hposHigh := utf8EncodeChar_pos high
    have hposLow := utf8EncodeChar_pos low
    refine Or.inr ⟨hhead, ?_⟩
    simp only [octets_cons, List.length_append, List.length_cons]
    omega
  | case2 high low rest hnot ih =>
    refine plainOrShorter_cons (hasEscape_cons_iff.trans (or_iff_left ?_)) ih
    intro hhead
    obtain ⟨high', low', rest', -, heq, hhigh, hlow⟩ := hhead
    cases heq
    obtain ⟨a, ha⟩ := Option.isSome_iff_exists.mp hhigh
    obtain ⟨b, hb⟩ := Option.isSome_iff_exists.mp hlow
    exact hnot a b ha hb
  | case3 c rest hnot ih =>
    refine plainOrShorter_cons (hasEscape_cons_iff.trans (or_iff_left ?_)) ih
    intro hhead
    obtain ⟨high, low, rest', hc, heq, -⟩ := hhead
    exact hnot high low rest' hc heq
  | case4 =>
    refine Or.inl ⟨?_, rfl⟩
    intro h
    obtain ⟨high, low, -, -, hsub⟩ := h
    simp at hsub

theorem percentDecode_of_noEscape {s : List Char} (h : ¬ HasEscape s) :
    percentDecode s = octets s := by
  rcases plainOrShorter_percentDecode s with hplain | hshorter
  · exact hplain.2
  · exact absurd hshorter.1 h

theorem length_percentDecode_le (s : List Char) :
    (percentDecode s).length ≤ (octets s).length := by
  rcases plainOrShorter_percentDecode s with hplain | hshorter
  · exact Nat.le_of_eq (congrArg List.length hplain.2)
  · exact Nat.le_of_lt hshorter.2

theorem noEscape_of_length {s : List Char} (h : (octets s).length ≤ (percentDecode s).length) :
    ¬ HasEscape s := by
  rcases plainOrShorter_percentDecode s with hplain | hshorter
  · exact hplain.1
  · exact absurd hshorter.2 (Nat.not_lt_of_le h)

/-- A component that means at least as much as it holds is what it means. -/
theorem eq_of_percentDecode {s t : List Char} (hmeaning : percentDecode s = octets t)
    (hlength : (octets s).length ≤ (octets t).length) : s = t ∧ ¬ HasEscape t := by
  have hplain : ¬ HasEscape s := noEscape_of_length (by rw [hmeaning]; exact hlength)
  have heq : s = t := octets_injective ((percentDecode_of_noEscape hplain).symm.trans hmeaning)
  exact ⟨heq, heq ▸ hplain⟩

/-- The characters that need no escape anywhere. -/
def isUnreserved (c : Char) : Bool := c.isAlphanum || c = '-' || c = '.' || c = '_' || c = '~'

def hexDigit (n : Nat) : Char := if n < 10 then Char.ofNat (48 + n) else Char.ofNat (55 + n)

def escapeOctet (b : UInt8) : List Char := ['%', hexDigit (b.toNat / 16), hexDigit (b.toNat % 16)]

/-- A component of which every character that may mean something else is escaped. -/
def percentEncode (s : List Char) : List Char :=
  s.flatMap fun c => if isUnreserved c then [c] else (String.utf8EncodeChar c).flatMap escapeOctet

theorem hexValue_hexDigit {n : Nat} (h : n < 16) : hexValue (hexDigit n) = some n := by
  have hall : ((List.range 16).all fun n => hexValue (hexDigit n) == some n) := by decide
  exact eq_of_beq (List.all_eq_true.mp hall n (List.mem_range.mpr h))

theorem isUnreserved_hexDigit {n : Nat} (h : n < 16) : isUnreserved (hexDigit n) = true := by
  have hall : ((List.range 16).all fun n => isUnreserved (hexDigit n)) := by decide
  exact List.all_eq_true.mp hall n (List.mem_range.mpr h)

theorem div_lt_sixteen (b : UInt8) : b.toNat / 16 < 16 := by
  have hlt := UInt8.toNat_lt b
  omega

theorem mod_lt_sixteen (b : UInt8) : b.toNat % 16 < 16 := Nat.mod_lt _ (by decide)

theorem percentDecode_escapeOctet (b : UInt8) (s : List Char) :
    percentDecode (escapeOctet b ++ s) = b :: percentDecode s := by
  have hvalue : 16 * (b.toNat / 16) + b.toNat % 16 = b.toNat := Nat.div_add_mod b.toNat 16
  change percentDecode ('%' :: _ :: _ :: s) = _
  rw [percentDecode, hexValue_hexDigit (div_lt_sixteen b), hexValue_hexDigit (mod_lt_sixteen b)]
  simp only [hvalue, UInt8.ofNat_toNat]

theorem percentDecode_cons_of_ne {c : Char} (h : c ≠ '%') (s : List Char) :
    percentDecode (c :: s) = String.utf8EncodeChar c ++ percentDecode s := by
  rw [percentDecode]
  intro high low rest hc
  exact absurd hc h

theorem percentDecode_flatMap_escapeOctet (bytes : List UInt8) (s : List Char) :
    percentDecode (bytes.flatMap escapeOctet ++ s) = bytes ++ percentDecode s := by
  induction bytes with
  | nil => rfl
  | cons b bytes ih =>
    rw [List.flatMap_cons, List.append_assoc, percentDecode_escapeOctet, ih]
    rfl

/-- What is encoded is read back. -/
theorem percentDecode_percentEncode (s : List Char) :
    percentDecode (percentEncode s) = octets s := by
  induction s with
  | nil => rfl
  | cons c s ih =>
    have hcons : percentEncode (c :: s) =
        (if isUnreserved c then [c] else (String.utf8EncodeChar c).flatMap escapeOctet) ++
          percentEncode s := rfl
    rw [hcons, octets_cons]
    by_cases hc : isUnreserved c = true
    · have hne : c ≠ '%' := by
        intro heq
        rw [heq] at hc
        exact absurd hc (by decide)
      rw [if_pos hc, List.singleton_append, percentDecode_cons_of_ne hne, ih]
    · rw [if_neg hc, percentDecode_flatMap_escapeOctet, ih]

/-- An encoded text has no separators. -/
theorem mem_percentEncode {s : List Char} {c : Char} (h : c ∈ percentEncode s) :
    isUnreserved c = true ∨ c = '%' := by
  obtain ⟨d, -, hd⟩ := List.mem_flatMap.mp h
  split at hd
  · rename_i hunreserved
    rw [List.mem_singleton.mp hd]
    exact Or.inl hunreserved
  · obtain ⟨b, -, hb⟩ := List.mem_flatMap.mp hd
    simp only [escapeOctet, List.mem_cons, List.not_mem_nil, or_false] at hb
    rcases hb with hpercent | hhigh | hlow
    · exact Or.inr hpercent
    · rw [hhigh]
      exact Or.inl (isUnreserved_hexDigit (div_lt_sixteen b))
    · rw [hlow]
      exact Or.inl (isUnreserved_hexDigit (mod_lt_sixteen b))

theorem notMem_percentEncode {d : Char} (hd : isUnreserved d = false) (hpercent : d ≠ '%')
    (s : List Char) : d ∉ percentEncode s := by
  intro hmem
  rcases mem_percentEncode hmem with hunreserved | heq
  · rw [hunreserved] at hd
    cases hd
  · exact hpercent heq

theorem visible_of_isUnreserved {c : Char} (h : isUnreserved c = true) :
    32 < c.toNat ∧ c.toNat < 128 := by
  have hascii : c.toNat < 128 := by
    simp only [isUnreserved, Bool.or_eq_true, decide_eq_true_eq] at h
    rcases h with (((halphanum | rfl) | rfl) | rfl) | rfl
    · have hcases : c.isAlpha = true ∨ c.isDigit = true := Bool.or_eq_true_iff.mp halphanum
      rcases hcases with halpha | hdigit
      · exact PyText.ascii_of_isAlpha halpha
      · exact Nat.lt_of_le_of_lt (Char.isDigit_iff_toNat.mp hdigit).2 (by decide)
    all_goals decide
  exact ⟨PyText.forall_ascii (P := fun c => isUnreserved c = true → 32 < c.toNat) (by decide) hascii h,
    hascii⟩

theorem length_escape_gt (c : Char) :
    1 < ((String.utf8EncodeChar c).flatMap escapeOctet).length := by
  cases hbytes : String.utf8EncodeChar c with
  | nil => exact absurd hbytes String.utf8EncodeChar_ne_nil
  | cons b bytes => simp [escapeOctet]

/-- Encoding leaves only the unreserved characters as they are. -/
theorem percentEncode_eq_self_iff {s : List Char} :
    percentEncode s = s ↔ ∀ c ∈ s, isUnreserved c = true := by
  have hgrows : ∀ s : List Char, s.length ≤ (percentEncode s).length ∧
      ((percentEncode s).length = s.length → ∀ c ∈ s, isUnreserved c = true) := by
    intro s
    induction s with
    | nil => exact ⟨Nat.le_refl _, fun _ c hc => by cases hc⟩
    | cons c s ih =>
      have hlength : (percentEncode (c :: s)).length = (if isUnreserved c then [c] else
          (String.utf8EncodeChar c).flatMap escapeOctet).length + (percentEncode s).length :=
        List.length_append
      have hescape := length_escape_gt c
      rw [hlength]
      by_cases hc : isUnreserved c = true
      · simp only [if_pos hc, List.length_cons, List.length_nil, List.forall_mem_cons]
        exact ⟨by omega, fun heq => ⟨hc, ih.2 (by omega)⟩⟩
      · simp only [if_neg hc, List.length_cons]
        exact ⟨by omega, fun heq => by omega⟩
  constructor
  · intro h
    exact (hgrows s).2 (congrArg List.length h)
  · intro h
    have hsame : percentEncode s = s.flatMap fun c => [c] := by
      refine List.flatMap_congr ?_
      intro c hc
      rw [if_pos (h c hc)]
    rw [hsame, List.flatMap_singleton']

/-- The characters of host names. -/
def isHostChar (c : Char) : Bool := c.isAlphanum || c = '-' || c = '.' || c = '_'

def HostName (host : String) : Prop := host ≠ "" ∧ host.toList.all isHostChar = true

instance (host : String) : Decidable (HostName host) := inferInstanceAs (Decidable (_ ∧ _))

theorem HostName.notMem {host : String} (h : HostName host) {d : Char}
    (hd : isHostChar d = false) : d ∉ host.toList := by
  intro hmem
  rw [List.all_eq_true.mp h.2 d hmem] at hd
  cases hd

theorem notMem_toDigits {d : Char} (hd : d.isDigit = false) (n : Nat) :
    d ∉ Nat.toDigits 10 n := by
  intro hmem
  rw [Nat.isDigit_of_mem_toDigits (by decide) (by decide) hmem] at hd
  cases hd

/-! ## Reading a URL -/

/-- The components of a URL, decoded. -/
structure Components where
  scheme : List Char
  user : Option (List UInt8)
  password : Option (List UInt8)
  host : List UInt8
  port : Option Nat
  path : List UInt8
  query : Option (List Char)
  fragment : Option (List Char)
  deriving DecidableEq

/-- The characters that end an authority. -/
def endsAuthority (c : Char) : Bool := c = '/' || c = '?' || c = '#'

theorem inAuthority_iff {s : List Char} :
    (∀ c ∈ s, endsAuthority c = false) ↔ ∀ d ∈ ['/', '?', '#'], d ∉ s := by
  constructor
  · intro h d hd hmem
    have hnot := h d hmem
    simp only [List.mem_cons, List.not_mem_nil, or_false] at hd
    rcases hd with rfl | rfl | rfl <;> exact absurd hnot (by decide)
  · intro h c hc
    simp only [endsAuthority, Bool.or_eq_false_iff, decide_eq_false_iff_not]
    exact ⟨⟨fun heq => h '/' (by simp) (heq ▸ hc), fun heq => h '?' (by simp) (heq ▸ hc)⟩,
      fun heq => h '#' (by simp) (heq ▸ hc)⟩

/-- The number that decimal digits stand for. -/
def number (digits : List UInt8) : Nat := digits.foldl (fun n b => 10 * n + (b.toNat - 48)) 0

/-- A port that is not empty. -/
def readPort (text : List UInt8) : Option Nat :=
  if text ≠ [] ∧ text.all (fun b => 48 ≤ b.toNat ∧ b.toNat ≤ 57) then some (number text) else none

theorem number_lt (digits : List UInt8) (h : ∀ b ∈ digits, b.toNat ≤ 57) :
    number digits < 10 ^ digits.length := by
  induction digits using List.reverseRecOn with
  | nil => decide
  | append_singleton digits b ih =>
    have hlt := ih fun b hb => h b (by simp [hb])
    have hb := h b (by simp)
    simp only [number, List.foldl_append, List.foldl_cons, List.foldl_nil, List.length_append,
      List.length_singleton, Nat.pow_succ] at hlt ⊢
    omega

theorem octets_digit {c : Char} (h : c.isDigit = true) :
    String.utf8EncodeChar c = [c.val.toUInt8] ∧ 48 ≤ c.val.toUInt8.toNat ∧
      c.val.toUInt8.toNat ≤ 57 ∧ c.val.toUInt8.toNat = c.toNat := by
  obtain ⟨hlow, hhigh⟩ := Char.isDigit_iff_toNat.mp h
  have hhigh' : c.toNat ≤ 57 := hhigh
  have hbyte : c.val.toUInt8.toNat = c.toNat := by
    rw [UInt32.toNat_toUInt8]
    exact Nat.mod_eq_of_lt (Nat.lt_of_le_of_lt hhigh' (by decide))
  have hsize : c.utf8Size = 1 := by
    rw [Char.utf8Size_eq_one_iff, UInt32.le_iff_toNat_le]
    exact Nat.le_trans hhigh' (by decide)
  rw [hbyte]
  exact ⟨String.utf8EncodeChar_eq_singleton hsize, hlow, hhigh', rfl⟩

theorem octets_digits {digits : List Char} (h : ∀ c ∈ digits, c.isDigit = true) :
    octets digits = digits.map fun c => c.val.toUInt8 := by
  unfold octets
  rw [List.map_eq_flatMap]
  refine List.flatMap_congr ?_
  intro c hc
  exact (octets_digit (h c hc)).1

theorem number_octets {digits : List Char} (h : ∀ c ∈ digits, c.isDigit = true) :
    number (octets digits) = Nat.ofDigitChars 10 digits 0 := by
  rw [octets_digits h, number, List.foldl_map, Nat.ofDigitChars_eq_foldl]
  refine List.foldl_ext _ _ 0 ?_
  intro n c hc
  rw [(octets_digit (h c hc)).2.2.2]
  rfl

/-- The port that is written in decimal is read. -/
theorem readPort_toDigits (n : Nat) : readPort (octets (Nat.toDigits 10 n)) = some n := by
  have hdigits : ∀ c ∈ Nat.toDigits 10 n, c.isDigit = true := by
    intro c hc
    exact Nat.isDigit_of_mem_toDigits (by decide) (by decide) hc
  have hbytes : (octets (Nat.toDigits 10 n)).all fun b => 48 ≤ b.toNat ∧ b.toNat ≤ 57 := by
    rw [octets_digits hdigits, List.all_eq_true]
    intro b hb
    obtain ⟨c, hc, rfl⟩ := List.mem_map.mp hb
    have hrange := octets_digit (hdigits c hc)
    exact decide_eq_true ⟨hrange.2.1, hrange.2.2.1⟩
  have hne : octets (Nat.toDigits 10 n) ≠ [] := by
    rw [octets_digits hdigits]
    exact fun heq => Nat.toDigits_ne_nil (List.map_eq_nil_iff.mp heq)
  rw [readPort, if_pos ⟨hne, hbytes⟩, number_octets hdigits, Nat.ofDigitChars_ten_toDigits]

/-- No text is shorter than the decimal digits of the number it stands for. -/
theorem length_octets_toDigits_le {text : List UInt8} {n : Nat} (h : readPort text = some n) :
    (octets (Nat.toDigits 10 n)).length ≤ text.length := by
  have hdigits : ∀ c ∈ Nat.toDigits 10 n, c.isDigit = true := by
    intro c hc
    exact Nat.isDigit_of_mem_toDigits (by decide) (by decide) hc
  rw [octets_digits hdigits, List.length_map]
  unfold readPort at h
  split at h
  · rename_i htext
    cases h
    have hpos : 0 < text.length := List.length_pos_iff.mpr htext.1
    exact (Nat.length_toDigits_le_iff (by decide) hpos).mpr
      (number_lt text fun b hb => (of_decide_eq_true (List.all_eq_true.mp htext.2 b hb)).2)
  · cases h

/-- A URL with an authority, read by its separators and then decoded; the path is without its
first slash. -/
def read (url : List Char) : Option Components :=
  let (scheme, rest) := partition ':' url
  match rest with
  | '/' :: '/' :: rest =>
    let authority := rest.takeWhile fun c => !endsAuthority c
    let tail := rest.dropWhile fun c => !endsAuthority c
    let (beforeFragment, fragment) := partition '#' tail
    let (path, query) := partition '?' beforeFragment
    let (userinfo, address) := rpartition '@' authority
    some {
      scheme := scheme
      user := if '@' ∈ authority then some (percentDecode (partition ':' userinfo).1) else none
      password := if '@' ∈ authority ∧ ':' ∈ userinfo then
        some (percentDecode (partition ':' userinfo).2) else none
      host := percentDecode (partition ':' address).1
      port := readPort (percentDecode (partition ':' address).2)
      path := percentDecode (path.drop 1)
      query := if '?' ∈ beforeFragment then some query else none
      fragment := if '#' ∈ tail then some fragment else none }
  | _ => none

/-- The components as they are written. -/
structure Written where
  scheme : List Char
  user : List Char
  password : List Char
  host : List Char
  port : List Char
  path : List Char

namespace Written

def userinfo (w : Written) : List Char := w.user ++ ':' :: w.password

def address (w : Written) : List Char := w.host ++ ':' :: w.port

def authority (w : Written) : List Char := w.userinfo ++ '@' :: w.address

def text (w : Written) : List Char :=
  w.scheme ++ ':' :: '/' :: '/' :: (w.authority ++ '/' :: w.path)

/-- What the components stand for. -/
def meaning (w : Written) : Components where
  scheme := w.scheme
  user := some (percentDecode w.user)
  password := some (percentDecode w.password)
  host := percentDecode w.host
  port := readPort (percentDecode w.port)
  path := percentDecode w.path
  query := none
  fragment := none

/-- No component holds a separator that would end it. -/
structure Separated (w : Written) : Prop where
  scheme : ':' ∉ w.scheme
  user : ':' ∉ w.user
  host : ':' ∉ w.host
  address : '@' ∉ w.address
  authority : ∀ c ∈ w.authority, endsAuthority c = false
  path : '?' ∉ w.path ∧ '#' ∉ w.path

variable {w : Written}

theorem takeWhile_authority (h : w.Separated) :
    (w.authority ++ '/' :: w.path).takeWhile (fun c => !endsAuthority c) = w.authority := by
  have hall : ∀ c ∈ w.authority, (!endsAuthority c) = true := by
    intro c hc
    rw [h.authority c hc]
    rfl
  rw [List.takeWhile_append_of_pos hall]
  simp [endsAuthority]

theorem dropWhile_authority (h : w.Separated) :
    (w.authority ++ '/' :: w.path).dropWhile (fun c => !endsAuthority c) = '/' :: w.path := by
  have hall : ∀ c ∈ w.authority, (!endsAuthority c) = true := by
    intro c hc
    rw [h.authority c hc]
    rfl
  rw [List.dropWhile_append_of_pos hall]
  simp [endsAuthority]

/-- Separated components are read back. -/
theorem read_text (h : w.Separated) : read w.text = some w.meaning := by
  have hquestion : '?' ∉ '/' :: w.path := by simp [h.path.1]
  have hhash : '#' ∉ '/' :: w.path := by simp [h.path.2]
  have hat : '@' ∈ w.authority := by simp [authority]
  have hcolon : ':' ∈ w.userinfo := by simp [userinfo]
  have huserinfo : partition ':' w.userinfo = (w.user, w.password) :=
    PyUrl.partition_append h.user w.password
  have haddress : partition ':' w.address = (w.host, w.port) :=
    PyUrl.partition_append h.host w.port
  have hauthority : rpartition '@' w.authority = (w.userinfo, w.address) :=
    PyUrl.rpartition_append h.address w.userinfo
  unfold read text
  rw [PyUrl.partition_append h.scheme]
  simp only [takeWhile_authority h, dropWhile_authority h, PyUrl.partition_of_notMem hhash,
    PyUrl.partition_of_notMem hquestion, hauthority, huserinfo, haddress, if_pos hat,
    if_pos (And.intro hat hcolon), if_neg hquestion, if_neg hhash]
  rfl

/-- A tail without query and fragment is a path, which starts at its slash. -/
theorem exists_path {rest : List Char}
    (hquery : '?' ∉ rest.dropWhile fun c => !endsAuthority c)
    (hfragment : '#' ∉ rest.dropWhile fun c => !endsAuthority c)
    (hne : (rest.dropWhile fun c => !endsAuthority c) ≠ []) :
    ∃ path, (rest.dropWhile fun c => !endsAuthority c) = '/' :: path := by
  have hhead := List.head?_dropWhile_not (fun c => !endsAuthority c) rest
  cases htail : rest.dropWhile fun c => !endsAuthority c with
  | nil => exact absurd htail hne
  | cons c path =>
    rw [htail] at hquery hfragment hhead
    have hends : endsAuthority c = true := by simpa using hhead
    have hslash : c = '/' := by
      simp only [endsAuthority, Bool.or_eq_true, decide_eq_true_eq] at hends
      simp only [List.mem_cons, not_or] at hquery hfragment
      rcases hends with (hslash | hquestion) | hhash
      · exact hslash
      · exact absurd hquestion.symm hquery.1
      · exact absurd hhash.symm hfragment.1
    exact ⟨path, by rw [hslash]⟩

/-- The octets of the text, component by component. -/
theorem length_octets_text (w : Written) :
    (octets w.text).length = (octets w.scheme).length + (octets w.user).length +
      (octets w.password).length + (octets w.host).length + (octets w.port).length +
      (octets w.path).length + (octets "://:@:/".toList).length := by
  have hseparators : "://:@:/".toList = [':', '/', '/', ':', '@', ':', '/'] := rfl
  rw [hseparators]
  simp only [text, authority, userinfo, address, octets_append, octets_cons, List.length_append]
  simp only [octets, List.flatMap_nil, List.length_nil]
  omega

/-- The components that are cut out of an authority. -/
def ofAuthority (scheme authority path : List Char) : Written where
  scheme := scheme
  user := (partition ':' (rpartition '@' authority).1).1
  password := (partition ':' (rpartition '@' authority).1).2
  host := (partition ':' (rpartition '@' authority).2).1
  port := (partition ':' (rpartition '@' authority).2).2
  path := path

section ofAuthority

variable {scheme authority path : List Char}

theorem userinfo_ofAuthority (hcolon : ':' ∈ (rpartition '@' authority).1) :
    (ofAuthority scheme authority path).userinfo = (rpartition '@' authority).1 :=
  (PyUrl.partition_of_mem hcolon).symm

theorem address_ofAuthority (hcolon : ':' ∈ (rpartition '@' authority).2) :
    (ofAuthority scheme authority path).address = (rpartition '@' authority).2 :=
  (PyUrl.partition_of_mem hcolon).symm

theorem authority_ofAuthority (hat : '@' ∈ authority) (huser : ':' ∈ (rpartition '@' authority).1)
    (hhost : ':' ∈ (rpartition '@' authority).2) :
    (ofAuthority scheme authority path).authority = authority := by
  rw [Written.authority, userinfo_ofAuthority huser, address_ofAuthority hhost]
  exact (PyUrl.rpartition_of_mem hat).symm

/-- An authority with all its separators is cut at them. -/
theorem separated_ofAuthority (hat : '@' ∈ authority)
    (huser : ':' ∈ (rpartition '@' authority).1) (hhost : ':' ∈ (rpartition '@' authority).2)
    (hscheme : ':' ∉ scheme) (hends : ∀ c ∈ authority, endsAuthority c = false)
    (hpath : '?' ∉ path ∧ '#' ∉ path) : (ofAuthority scheme authority path).Separated where
  scheme := hscheme
  user := PyUrl.notMem_partition ':' _
  host := PyUrl.notMem_partition ':' _
  address := by
    rw [address_ofAuthority hhost]
    exact PyUrl.notMem_rpartition '@' authority
  authority := by
    rw [authority_ofAuthority hat huser hhost]
    exact hends
  path := hpath

end ofAuthority

/-- A URL that is read with a user, a password, a port and a path, and nothing after the path, is
the text of separated components. -/
theorem exists_of_read {url : List Char} {m : Components} (h : read url = some m)
    (huser : m.user ≠ none) (hpassword : m.password ≠ none) (hport : m.port ≠ none)
    (hpath : m.path ≠ []) (hquery : m.query = none) (hfragment : m.fragment = none) :
    ∃ w : Written, w.Separated ∧ w.text = url ∧ w.meaning = m := by
  unfold read at h
  simp only at h
  split at h
  case h_2 => cases h
  rename_i rest hrest
  have hurl : ':' ∈ url := by
    by_contra hnot
    rw [PyUrl.partition_of_notMem hnot] at hrest
    cases hrest
  have hscheme := PyUrl.partition_of_mem hurl
  rw [hrest] at hscheme
  have hsplit := List.takeWhile_append_dropWhile (p := fun c => !endsAuthority c) (l := rest)
  have hends : ∀ c ∈ rest.takeWhile (fun c => !endsAuthority c), endsAuthority c = false := by
    intro c hc
    simpa using List.mem_takeWhile_imp hc
  have htail := @exists_path rest
  generalize rest.takeWhile (fun c => !endsAuthority c) = authority at h hsplit hends
  generalize rest.dropWhile (fun c => !endsAuthority c) = tail at h hsplit htail
  cases h
  -- a component that is missing takes its separator with it
  have hhash : '#' ∉ tail := by
    intro hmem
    simp [hmem] at hfragment
  rw [PyUrl.partition_of_notMem hhash] at hquery hpath ⊢
  have hquestion : '?' ∉ tail := by
    intro hmem
    simp [hmem] at hquery
  rw [PyUrl.partition_of_notMem hquestion] at hpath ⊢
  have hne : tail ≠ [] := by
    intro hnil
    rw [hnil] at hpath
    exact hpath rfl
  obtain ⟨path, rfl⟩ := htail hquestion hhash hne
  have hat : '@' ∈ authority := by
    by_contra hnot
    simp [hnot] at huser
  have hcolon : ':' ∈ (rpartition '@' authority).1 := by
    by_contra hnot
    simp [hnot] at hpassword
  have hport' : ':' ∈ (rpartition '@' authority).2 := by
    by_contra hnot
    rw [PyUrl.partition_of_notMem hnot] at hport
    exact hport rfl
  have hclean : '?' ∉ path ∧ '#' ∉ path :=
    ⟨fun hmem => hquestion (List.mem_cons_of_mem _ hmem),
      fun hmem => hhash (List.mem_cons_of_mem _ hmem)⟩
  refine ⟨ofAuthority (partition ':' url).1 authority path,
    separated_ofAuthority hat hcolon hport' (PyUrl.notMem_partition ':' url) hends hclean, ?_, ?_⟩
  · rw [← hsplit] at hscheme
    rw [text, authority_ofAuthority hat hcolon hport']
    exact hscheme.symm
  · simp [meaning, ofAuthority, hat, hcolon, hclean.1, hclean.2]

end Written

end DataBridge.StandardUrl
