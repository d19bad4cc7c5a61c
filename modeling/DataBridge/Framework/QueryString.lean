import DataBridge.Framework.StandardUrl
import Mathlib.Tactic.Common

namespace DataBridge.PyUrl

open StandardUrl (octets hexValue percentDecode isUnreserved escapeOctet)

/-! ## Text in UTF-8 -/

/-- Whether `b` may be octet `i` of a character that starts with `lead`, if the octets between them
may stand there. -/
def mayFollow (lead : UInt8) (i : Nat) (b : UInt8) : Bool :=
  let n := lead.toNat
  let k := b.toNat
  match i with
  | 1 =>
    if n = 0xe0 then 0xa0 ≤ k ∧ k ≤ 0xbf
    else if n = 0xed then 0x80 ≤ k ∧ k ≤ 0x9f
    else if n = 0xf0 then 0x90 ≤ k ∧ k ≤ 0xbf
    else if n = 0xf4 then 0x80 ≤ k ∧ k ≤ 0x8f
    else 0xc2 ≤ n ∧ n ≤ 0xf4 ∧ 0x80 ≤ k ∧ k ≤ 0xbf
  | 2 => 0xe0 ≤ n ∧ 0x80 ≤ k ∧ k ≤ 0xbf
  | 3 => 0xf0 ≤ n ∧ 0x80 ≤ k ∧ k ≤ 0xbf
  | _ => false

/-- How many octets of a broken character one replacement character stands for. -/
def brokenLength (lead : UInt8) (rest : List UInt8) : Nat :=
  1 + ((rest.zipIdx 1).takeWhile fun p => mayFollow lead p.2 p.1).length

/-- `bytes.decode('utf-8', errors='replace')`, for `n` characters at most. -/
def decodeUpTo : Nat → List UInt8 → List Char
  | 0, _ => []
  | _ + 1, [] => []
  | n + 1, b :: bytes =>
    match ByteArray.utf8DecodeChar? (b :: bytes).toByteArray 0 with
    | some c => c :: decodeUpTo n ((b :: bytes).drop c.utf8Size)
    | none => '\ufffd' :: decodeUpTo n ((b :: bytes).drop (brokenLength b bytes))

def decodeUtf8 (bytes : List UInt8) : List Char := decodeUpTo bytes.length bytes

theorem decodeUpTo_octets {n : Nat} {s : List Char} (h : (octets s).length ≤ n) :
    decodeUpTo n (octets s) = s := by
  induction s generalizing n with
  | nil => cases n <;> rfl
  | cons c s ih =>
    have hpos := StandardUrl.utf8EncodeChar_pos c
    rw [StandardUrl.octets_cons] at h ⊢
    rw [List.length_append] at h
    obtain ⟨n, rfl⟩ := Nat.exists_eq_succ_of_ne_zero (Nat.ne_of_gt (by omega : 0 < n))
    obtain ⟨b, bytes, hbytes⟩ := List.exists_cons_of_length_pos hpos
    have hdecode : ByteArray.utf8DecodeChar?
        (String.utf8EncodeChar c ++ octets s).toByteArray 0 = some c := by
      rw [List.toByteArray_append]
      exact ByteArray.utf8DecodeChar?_utf8EncodeChar_append
    have hdrop : (String.utf8EncodeChar c ++ octets s).drop c.utf8Size = octets s := by
      rw [← String.length_utf8EncodeChar, List.drop_left]
    rw [hbytes] at hdecode hdrop ⊢
    rw [List.cons_append] at hdecode hdrop ⊢
    rw [decodeUpTo, hdecode]
    dsimp only
    rw [hdrop, ih (by omega)]

/-- What is encoded is read back. -/
theorem decodeUtf8_octets (s : List Char) : decodeUtf8 (octets s) = s :=
  decodeUpTo_octets (Nat.le_refl _)

theorem decodeUtf8_ne_nil {bytes : List UInt8} (h : bytes ≠ []) : decodeUtf8 bytes ≠ [] := by
  obtain ⟨b, rest, rfl⟩ := List.exists_cons_of_ne_nil h
  rw [decodeUtf8, List.length_cons, decodeUpTo]
  split
  · exact List.cons_ne_nil _ _
  · exact List.cons_ne_nil _ _

/-! ## Quoting -/

/-- `quote(s, safe)`. -/
def quote (safe : List Char) (s : List Char) : List Char :=
  s.flatMap fun c =>
    if isUnreserved c ∨ c ∈ safe then [c] else (String.utf8EncodeChar c).flatMap escapeOctet

/-- `quote_plus(s)`. -/
def quotePlus (s : List Char) : List Char :=
  (quote [' '] s).map fun c => if c = ' ' then '+' else c

/-- `unquote(s)`: the octets of a run of ASCII characters are decoded together; `pending` are those
of the run so far. -/
def unquoteFrom : List UInt8 → List Char → List Char
  | pending, '%' :: high :: low :: rest =>
    match hexValue high, hexValue low with
    | some a, some b => unquoteFrom (pending ++ [UInt8.ofNat (16 * a + b)]) rest
    | _, _ => unquoteFrom (pending ++ String.utf8EncodeChar '%') (high :: low :: rest)
  | pending, c :: rest =>
    if c.toNat < 128 then unquoteFrom (pending ++ String.utf8EncodeChar c) rest
    else decodeUtf8 pending ++ c :: unquoteFrom [] rest
  | pending, [] => decodeUtf8 pending

def unquote (s : List Char) : List Char := unquoteFrom [] s

/-- `unquote_plus(s)`. -/
def unquotePlus (s : List Char) : List Char :=
  unquote (s.map fun c => if c = '+' then ' ' else c)

/-- A text in ASCII is one run. -/
theorem unquoteFrom_ascii (pending : List UInt8) (s : List Char)
    (h : ∀ c ∈ s, c.toNat < 128) :
    unquoteFrom pending s = decodeUtf8 (pending ++ percentDecode s) := by
  fun_induction unquoteFrom pending s with
  | case1 pending high low rest a b hlow hhigh ih =>
    rw [ih fun c hc => h c (by simp [hc]), percentDecode, hhigh, hlow, List.append_assoc]
    rfl
  | case2 pending high low rest hnot ih =>
    have hdecode : percentDecode ('%' :: high :: low :: rest) =
        String.utf8EncodeChar '%' ++ percentDecode (high :: low :: rest) := by
      rw [percentDecode]
      split
      · rename_i a b hhigh hlow
        exact absurd hlow (hnot a b hhigh)
      · rfl
    rw [ih fun c hc => h c (List.mem_cons_of_mem _ hc), hdecode, List.append_assoc]
  | case3 pending c rest hnot hascii ih =>
    have hdecode : percentDecode (c :: rest) = String.utf8EncodeChar c ++ percentDecode rest := by
      rw [percentDecode]
      exact hnot
    rw [ih fun d hd => h d (List.mem_cons_of_mem _ hd), hdecode, List.append_assoc]
  | case4 pending c rest hnot hascii ih =>
    exact absurd (h c List.mem_cons_self) hascii
  | case5 pending => rw [percentDecode, List.append_nil]

theorem unquoteFrom_ne_nil (pending : List UInt8) (s : List Char) (h : pending ≠ [] ∨ s ≠ []) :
    unquoteFrom pending s ≠ [] := by
  fun_induction unquoteFrom pending s with
  | case1 pending high low rest a b hlow hhigh ih => exact ih (Or.inl (by simp))
  | case2 pending high low rest hnot ih => exact ih (Or.inr (List.cons_ne_nil _ _))
  | case3 pending c rest hnot hascii ih =>
    refine ih (Or.inl ?_)
    simp [String.utf8EncodeChar_ne_nil]
  | case4 pending c rest hnot hascii ih => simp
  | case5 pending =>
    rcases h with hpending | hempty
    · exact decodeUtf8_ne_nil hpending
    · exact absurd rfl hempty

/-- A text that is not empty stands for one that is not. -/
theorem unquotePlus_ne_nil {s : List Char} (h : s ≠ []) : unquotePlus s ≠ [] :=
  unquoteFrom_ne_nil _ _ (Or.inr (by simpa using h))

theorem mem_quote {safe s : List Char} {c : Char} (h : c ∈ quote safe s) :
    isUnreserved c = true ∨ c ∈ safe ∨ c = '%' := by
  obtain ⟨d, -, hd⟩ := List.mem_flatMap.mp h
  split at hd
  · rename_i hkept
    rw [List.mem_singleton.mp hd]
    rcases hkept with hunreserved | hsafe
    · exact Or.inl hunreserved
    · exact Or.inr (Or.inl hsafe)
  · obtain ⟨b, -, hb⟩ := List.mem_flatMap.mp hd
    simp only [escapeOctet, List.mem_cons, List.not_mem_nil, or_false] at hb
    rcases hb with hpercent | hhigh | hlow
    · exact Or.inr (Or.inr hpercent)
    · rw [hhigh]
      exact Or.inl (StandardUrl.isUnreserved_hexDigit (StandardUrl.div_lt_sixteen b))
    · rw [hlow]
      exact Or.inl (StandardUrl.isUnreserved_hexDigit (StandardUrl.mod_lt_sixteen b))

theorem percentDecode_quote {safe : List Char} (hsafe : '%' ∉ safe) (s : List Char) :
    percentDecode (quote safe s) = octets s := by
  induction s with
  | nil => rfl
  | cons c s ih =>
    rw [quote, List.flatMap_cons, ← quote, StandardUrl.octets_cons]
    split
    · rename_i hkept
      have hne : c ≠ '%' := by
        rintro rfl
        rcases hkept with hunreserved | hmem
        · exact absurd hunreserved (by decide)
        · exact hsafe hmem
      rw [List.singleton_append, StandardUrl.percentDecode_cons_of_ne hne, ih]
    · rw [StandardUrl.percentDecode_flatMap_escapeOctet, ih]

/-- The characters of a quoted text. -/
theorem mem_quotePlus {s : List Char} {c : Char} (h : c ∈ quotePlus s) :
    isUnreserved c = true ∨ c = '%' ∨ c = '+' := by
  obtain ⟨d, hd, rfl⟩ := List.mem_map.mp h
  split
  · exact Or.inr (Or.inr rfl)
  · rename_i hne
    rcases mem_quote hd with hunreserved | hspace | hpercent
    · exact Or.inl hunreserved
    · exact absurd (List.mem_singleton.mp hspace) hne
    · exact Or.inr (Or.inl hpercent)

/-- What is quoted is read back. -/
theorem unquotePlus_quotePlus (s : List Char) : unquotePlus (quotePlus s) = s := by
  have hback : ((quotePlus s).map fun c => if c = '+' then ' ' else c) = quote [' '] s := by
    rw [quotePlus, List.map_map]
    conv_rhs => rw [← List.map_id (quote [' '] s)]
    apply List.map_congr_left
    intro c hc
    have hplus : c ≠ '+' := by
      rintro rfl
      exact absurd (mem_quote hc) (by decide)
    by_cases hspace : c = ' '
    · simp [hspace]
    · simp [hspace, hplus]
  have hascii : ∀ c ∈ quote [' '] s, c.toNat < 128 := by
    intro c hc
    rcases mem_quote hc with hunreserved | hspace | hpercent
    · exact (StandardUrl.visible_of_isUnreserved hunreserved).2
    · rw [List.mem_singleton.mp hspace]
      decide
    · rw [hpercent]
      decide
  rw [unquotePlus, hback, unquote, unquoteFrom_ascii _ _ hascii, List.nil_append,
    percentDecode_quote (by decide), decodeUtf8_octets]

theorem quotePlus_ne_nil {s : List Char} (h : s ≠ []) : quotePlus s ≠ [] := by
  intro hnil
  apply h
  rw [← unquotePlus_quotePlus s, hnil]
  rfl

/-! ## Query strings -/

/-- A name and a value, as they are written or as they are decoded. -/
abbrev Param := List Char × List Char

/-- One part of the query in `parse_qsl`: dropped where it has no value. -/
def readParam (nameValue : List Char) : Option Param :=
  if nameValue = [] then none
  else
    let (name, value) := partition '=' nameValue
    if value = [] then none else some (unquotePlus name, unquotePlus value)

/-- `parse_qsl(query)`, which does not keep blank values. -/
def parseQsl (query : List Char) : List Param :=
  if query = [] then [] else (query.splitOn '&').filterMap readParam

/-- `name=value&name=value…` -/
def writeQuery (params : List Param) : List Char :=
  ['&'].intercalate (params.map fun p => p.1 ++ '=' :: p.2)

def quoteParam (p : Param) : Param := (quotePlus p.1, quotePlus p.2)

def unquoteParam (p : Param) : Param := (unquotePlus p.1, unquotePlus p.2)

/-- `urlencode(params)`. -/
def urlencode (params : List Param) : List Char := writeQuery (params.map quoteParam)

/-- Neither part of the pair holds a separator that would end it. -/
structure SeparatedParam (p : Param) : Prop where
  name : '=' ∉ p.1 ∧ '&' ∉ p.1
  value : '&' ∉ p.2

theorem unquoteParam_quoteParam (p : Param) : unquoteParam (quoteParam p) = p :=
  Prod.ext (unquotePlus_quotePlus p.1) (unquotePlus_quotePlus p.2)

theorem notMem_quotePlus {d : Char} (hd : isUnreserved d = false) (hpercent : d ≠ '%')
    (hplus : d ≠ '+') (s : List Char) : d ∉ quotePlus s := by
  intro hmem
  rcases mem_quotePlus hmem with hunreserved | heq | heq
  · rw [hunreserved] at hd
    cases hd
  · exact hpercent heq
  · exact hplus heq

theorem separated_quoteParam (p : Param) : SeparatedParam (quoteParam p) where
  name := ⟨notMem_quotePlus (by decide) (by decide) (by decide) p.1,
    notMem_quotePlus (by decide) (by decide) (by decide) p.1⟩
  value := notMem_quotePlus (by decide) (by decide) (by decide) p.2

theorem readParam_write {p : Param} (h : SeparatedParam p) :
    readParam (p.1 ++ '=' :: p.2) = if p.2 = [] then none else some (unquoteParam p) := by
  rw [readParam, if_neg (by simp), partition_append h.name.1]
  rfl

theorem writeQuery_eq_nil_iff {params : List Param} : writeQuery params = [] ↔ params = [] := by
  cases params with
  | nil => simp [writeQuery]
  | cons p params =>
    cases params with
    | nil => simp [writeQuery]
    | cons q params => simp [writeQuery, List.intercalate]

/-- The characters of a query are its separators and those of its pairs. -/
theorem mem_writeQuery {params : List Param} {c : Char} (h : c ∈ writeQuery params) :
    c = '&' ∨ c = '=' ∨ ∃ p ∈ params, c ∈ p.1 ∨ c ∈ p.2 := by
  induction params with
  | nil => exact absurd h List.not_mem_nil
  | cons p params ih =>
    have hpair : c ∈ p.1 ++ '=' :: p.2 →
        c = '&' ∨ c = '=' ∨ ∃ q ∈ p :: params, c ∈ q.1 ∨ c ∈ q.2 := by
      intro hmem
      rcases List.mem_append.mp hmem with hname | hvalue
      · exact Or.inr (Or.inr ⟨p, List.mem_cons_self, Or.inl hname⟩)
      · rcases List.mem_cons.mp hvalue with heq | hvalue
        · exact Or.inr (Or.inl heq)
        · exact Or.inr (Or.inr ⟨p, List.mem_cons_self, Or.inr hvalue⟩)
    by_cases hnil : params = []
    · subst hnil
      rw [writeQuery, List.map_singleton, List.intercalate_singleton] at h
      exact hpair h
    · rw [writeQuery, List.map_cons, List.intercalate_cons_of_ne_nil (by simpa using hnil),
        List.append_assoc] at h
      rcases List.mem_append.mp h with hmem | hrest
      · exact hpair hmem
      · rcases List.mem_cons.mp hrest with heq | hrest
        · exact Or.inl heq
        · rcases ih hrest with heq | heq | ⟨q, hq, hmem⟩
          · exact Or.inl heq
          · exact Or.inr (Or.inl heq)
          · exact Or.inr (Or.inr ⟨q, List.mem_cons_of_mem _ hq, hmem⟩)

/-- No other character is left in an encoded query. -/
theorem notMem_urlencode {d : Char} (hd : isUnreserved d = false) (hpercent : d ≠ '%')
    (hplus : d ≠ '+') (hseparators : d ≠ '&' ∧ d ≠ '=') (params : List Param) :
    d ∉ urlencode params := by
  intro hmem
  rcases mem_writeQuery hmem with heq | heq | ⟨p, hp, hparts⟩
  · exact hseparators.1 heq
  · exact hseparators.2 heq
  · obtain ⟨q, -, rfl⟩ := List.mem_map.mp hp
    rcases hparts with hname | hvalue
    · exact notMem_quotePlus hd hpercent hplus q.1 hname
    · exact notMem_quotePlus hd hpercent hplus q.2 hvalue

theorem splitOn_writeQuery {params : List Param} (hnil : params ≠ [])
    (h : ∀ p ∈ params, SeparatedParam p) :
    (writeQuery params).splitOn '&' = params.map fun p => p.1 ++ '=' :: p.2 := by
  apply List.splitOn_intercalate '&'
  · intro part hpart hmem
    obtain ⟨p, hp, rfl⟩ := List.mem_map.mp hpart
    rcases List.mem_append.mp hmem with hname | hvalue
    · exact (h p hp).name.2 hname
    · rcases List.mem_cons.mp hvalue with heq | hvalue
      · exact absurd heq (by decide)
      · exact (h p hp).value hvalue
  · simpa using hnil

/-- The text of a query tells which pairs it was written from. -/
theorem writeQuery_injective {params others : List Param} (h : ∀ p ∈ params, SeparatedParam p)
    (hothers : ∀ p ∈ others, SeparatedParam p) (heq : writeQuery params = writeQuery others) :
    params = others := by
  have hread : ∀ qs : List Param, (∀ q ∈ qs, SeparatedParam q) →
      (qs.map fun q => q.1 ++ '=' :: q.2).map (partition '=') = qs := by
    intro qs hqs
    rw [List.map_map]
    conv_rhs => rw [← List.map_id qs]
    apply List.map_congr_left
    exact fun q hq => partition_append (hqs q hq).name.1 q.2
  by_cases hnil : params = []
  · rw [hnil] at heq
    rw [hnil, writeQuery_eq_nil_iff.mp heq.symm]
  · have hothersNil : others ≠ [] := by
      rintro rfl
      exact hnil (writeQuery_eq_nil_iff.mp heq)
    rw [← hread params h, ← hread others hothers, ← splitOn_writeQuery hnil h, heq,
      splitOn_writeQuery hothersNil hothers]

/-- Reading a query that is written from pairs: the blank ones are gone. -/
theorem parseQsl_writeQuery {params : List Param} (h : ∀ p ∈ params, SeparatedParam p) :
    parseQsl (writeQuery params) = (params.filter fun p => p.2 ≠ []).map unquoteParam := by
  by_cases hnil : params = []
  · subst hnil
    rfl
  · rw [parseQsl, if_neg (mt writeQuery_eq_nil_iff.mp hnil), splitOn_writeQuery hnil h,
      List.filterMap_map, ← List.filterMap_eq_map, ← List.filterMap_eq_filter,
      List.filterMap_filterMap]
    apply List.filterMap_congr
    intro p hp
    rw [Function.comp_apply, readParam_write (h p hp)]
    by_cases hvalue : p.2 = []
    · simp [hvalue, Option.guard]
    · simp [hvalue, Option.guard]

/-- Pairs that are encoded are read back, where no value is empty. -/
theorem parseQsl_urlencode {params : List Param} (h : ∀ p ∈ params, p.2 ≠ []) :
    parseQsl (urlencode params) = params := by
  have hseparated : ∀ p ∈ params.map quoteParam, SeparatedParam p := by
    intro p hp
    obtain ⟨q, -, rfl⟩ := List.mem_map.mp hp
    exact separated_quoteParam q
  have hvalues : ((params.map quoteParam).filter fun p => p.2 ≠ []) = params.map quoteParam := by
    apply List.filter_eq_self.mpr
    intro p hp
    obtain ⟨q, hq, rfl⟩ := List.mem_map.mp hp
    exact decide_eq_true (quotePlus_ne_nil (h q hq))
  rw [urlencode, parseQsl_writeQuery hseparated, hvalues, List.map_map]
  conv_rhs => rw [← List.map_id params]
  apply List.map_congr_left
  exact fun p _ => unquoteParam_quoteParam p

end DataBridge.PyUrl
