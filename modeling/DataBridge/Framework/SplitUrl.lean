import DataBridge.Framework.StandardUrl

namespace DataBridge.PyUrl

open StandardUrl (endsAuthority)

structure SplitResult where
  scheme : List Char
  netloc : List Char
  path : List Char
  query : List Char
  fragment : List Char
  deriving DecidableEq, Repr

/-- `urlsplit(url)`. -/
def urlsplit (t : Tables) (url : String) : Except String SplitResult := do
  let (scheme, rest) := splitScheme (clean url)
  let (netloc, rest) := splitNetloc rest
  checkBrackets t netloc
  let (rest, fragment) := partition '#' rest
  let (path, query) := partition '?' rest
  checkNetloc t netloc
  .ok ⟨scheme, netloc, path, query, fragment⟩

def usesNetloc : List String :=
  ["", "ftp", "http", "gopher", "nntp", "telnet", "imap", "wais", "file", "mms", "https", "shttp",
    "snews", "prospero", "rtsp", "rtsps", "rtspu", "rsync", "svn", "svn+ssh", "sftp", "nfs", "git",
    "git+ssh", "ws", "wss", "itms-services"]

/-- The authority and the path, as `urlunsplit` puts them together. -/
def joinNetloc (r : SplitResult) : List Char :=
  if r.netloc ≠ [] then
    let path := if r.path ≠ [] ∧ r.path.head? ≠ some '/' then '/' :: r.path else r.path
    ['/', '/'] ++ r.netloc ++ path
  else if r.path.take 2 = ['/', '/'] then ['/', '/'] ++ r.path
  else if r.scheme ≠ [] ∧ String.ofList r.scheme ∈ usesNetloc ∧
      (r.path = [] ∨ r.path.head? = some '/') then ['/', '/'] ++ r.path
  else r.path

/-- `urlunsplit(parts)`. -/
def urlunsplit (r : SplitResult) : String :=
  let url := joinNetloc r
  let url := if r.scheme ≠ [] then r.scheme ++ ':' :: url else url
  let url := if r.query ≠ [] then url ++ '?' :: r.query else url
  String.ofList (if r.fragment ≠ [] then url ++ '#' :: r.fragment else url)

/-- A URL with an authority, as it is written. -/
structure UrlText where
  scheme : List Char
  authority : List Char
  path : List Char
  query : Option (List Char) := none
  fragment : Option (List Char) := none
  deriving DecidableEq, Repr

namespace UrlText

/-- A separator and what follows it, if there is anything to follow. -/
def after (separator : Char) : Option (List Char) → List Char
  | none => []
  | some text => separator :: text

/-- What follows the authority. -/
def tail (u : UrlText) : List Char := u.path ++ (after '?' u.query ++ after '#' u.fragment)

def text (u : UrlText) : List Char :=
  u.scheme ++ ':' :: '/' :: '/' :: (u.authority ++ u.tail)

/-- Every part ends where it should, and `urlsplit` removes no character. -/
structure WellFormed (u : UrlText) : Prop where
  scheme : (u.scheme.head?.any Char.isAlpha) = true ∧ u.scheme.all isSchemeChar = true ∧
    u.scheme.map Char.toLower = u.scheme
  authority : ∀ c ∈ u.authority, endsAuthority c = false
  path : (u.path = [] ∨ u.path.head? = some '/') ∧ '?' ∉ u.path ∧ '#' ∉ u.path
  query : ∀ text, u.query = some text → '#' ∉ text
  clean : ∀ c ∈ u.text, c ≠ '\t' ∧ c ≠ '\r' ∧ c ≠ '\n'

variable {u : UrlText}

theorem text_eq (u : UrlText) :
    u.text = (u.scheme ++ "://".toList) ++ (u.authority ++ u.tail) := by
  rw [List.append_assoc]
  rfl

theorem notMem_after {separator c : Char} {text : Option (List Char)} (hc : c ≠ separator)
    (h : ∀ s, text = some s → c ∉ s) : c ∉ after separator text := by
  cases text with
  | none => exact List.not_mem_nil
  | some s =>
    intro hmem
    rcases List.mem_cons.mp hmem with heq | htail
    · exact hc heq
    · exact h s rfl htail

/-- A text up to a separator that may be there. -/
theorem partition_after {separator : Char} {s : List Char} (h : separator ∉ s)
    (text : Option (List Char)) :
    partition separator (s ++ after separator text) = (s, text.getD []) := by
  cases text with
  | none => simpa [after] using partition_of_notMem h
  | some rest => exact partition_append h rest

/-- The characters of a URL are its separators and those of its parts. -/
theorem forall_mem_text {P : Char → Prop} (hcolon : P ':') (hslash : P '/')
    (hquestion : P '?') (hhash : P '#') :
    (∀ c ∈ u.text, P c) ↔
      (∀ c ∈ u.scheme, P c) ∧ (∀ c ∈ u.authority, P c) ∧ (∀ c ∈ u.path, P c) ∧
        (∀ c ∈ u.query.getD [], P c) ∧ ∀ c ∈ u.fragment.getD [], P c := by
  have hafter : ∀ (separator : Char) (text : Option (List Char)), P separator →
      ((∀ c ∈ after separator text, P c) ↔ ∀ c ∈ text.getD [], P c) := by
    intro separator text hseparator
    cases text with
    | none => simp [after]
    | some text => simp [after, hseparator]
  simp only [text, tail, List.forall_mem_append, List.forall_mem_cons, hafter '?' _ hquestion,
    hafter '#' _ hhash, hcolon, hslash, true_and]

/-- The characters that `urlsplit` removes stand in none of the parts. -/
theorem clean_iff :
    (∀ c ∈ u.text, c ≠ '\t' ∧ c ≠ '\r' ∧ c ≠ '\n') ↔
      (∀ c ∈ u.scheme, c ≠ '\t' ∧ c ≠ '\r' ∧ c ≠ '\n') ∧
        (∀ c ∈ u.authority, c ≠ '\t' ∧ c ≠ '\r' ∧ c ≠ '\n') ∧
        (∀ c ∈ u.path, c ≠ '\t' ∧ c ≠ '\r' ∧ c ≠ '\n') ∧
        (∀ c ∈ u.query.getD [], c ≠ '\t' ∧ c ≠ '\r' ∧ c ≠ '\n') ∧
        ∀ c ∈ u.fragment.getD [], c ≠ '\t' ∧ c ≠ '\r' ∧ c ≠ '\n' :=
  forall_mem_text (by decide) (by decide) (by decide) (by decide)

theorem clean_text (h : u.WellFormed) : PyUrl.clean (String.ofList u.text) = u.text := by
  have hkeep : u.text.dropWhile (·.toNat ≤ 32) = u.text := by
    have halpha := h.scheme.1
    rw [text]
    cases hscheme : u.scheme with
    | nil =>
      rw [hscheme] at halpha
      cases halpha
    | cons c rest =>
      rw [hscheme] at halpha
      have hvisible : ∀ d : Char, d.toNat < 128 → d.isAlpha = true → 32 < d.toNat :=
        fun d hd => PyText.forall_ascii (P := fun d => d.isAlpha = true → 32 < d.toNat)
          (by decide) hd
      have hc := hvisible c (PyText.ascii_of_isAlpha halpha) halpha
      rw [List.cons_append, List.dropWhile_cons_of_neg (by simpa using hc)]
  unfold PyUrl.clean
  rw [String.toList_ofList, hkeep, List.filter_eq_self]
  exact fun c hc => decide_eq_true (h.clean c hc)

theorem splitScheme_text (h : u.WellFormed) :
    splitScheme u.text = (u.scheme, '/' :: '/' :: (u.authority ++ u.tail)) := by
  have hcolon : ':' ∉ u.scheme := by
    intro hmem
    exact absurd (List.all_eq_true.mp h.scheme.2.1 ':' hmem) (by decide)
  have hmem : ':' ∈ u.text := by simp [text]
  have hpartition : partition ':' u.text = _ := partition_append hcolon _
  unfold splitScheme
  rw [hpartition]
  simp only [if_pos (And.intro hmem (And.intro h.scheme.1 h.scheme.2.1)), h.scheme.2.2]

/-- The first character of what follows the authority ends it. -/
theorem tail_cases (h : u.WellFormed) :
    u.tail = [] ∨ ∃ c rest, u.tail = c :: rest ∧ endsAuthority c = true := by
  unfold tail
  rcases h.path.1 with hempty | hslash
  · rw [hempty, List.nil_append]
    cases u.query with
    | some query => exact Or.inr ⟨'?', _, rfl, by decide⟩
    | none =>
      cases u.fragment with
      | some fragment => exact Or.inr ⟨'#', _, rfl, by decide⟩
      | none => exact Or.inl rfl
  · obtain ⟨rest, hrest⟩ := List.head?_eq_some_iff.mp hslash
    rw [hrest]
    exact Or.inr ⟨'/', _, rfl, by decide⟩

theorem splitNetloc_text (h : u.WellFormed) :
    splitNetloc ('/' :: '/' :: (u.authority ++ u.tail)) = (u.authority, u.tail) := by
  have hsame : (fun c => decide (c ≠ '/' ∧ c ≠ '?' ∧ c ≠ '#')) = fun c => !endsAuthority c := by
    funext c
    simp [endsAuthority, Bool.or_assoc]
  have hall : ∀ c ∈ u.authority, (!endsAuthority c) = true := by
    intro c hc
    rw [h.authority c hc]
    rfl
  rw [splitNetloc, List.span_eq_takeWhile_dropWhile, hsame, List.takeWhile_append_of_pos hall,
    List.dropWhile_append_of_pos hall]
  rcases tail_cases h with hnil | ⟨c, rest, htail, hends⟩
  · rw [hnil]
    simp
  · rw [htail, List.takeWhile_cons_of_neg (by simp [hends]), List.dropWhile_cons_of_neg
      (by simp [hends]), List.append_nil]

/-- Such a text is split at its separators. -/
theorem urlsplit_text (t : Tables) (h : u.WellFormed) :
    urlsplit t (String.ofList u.text) = (do
      checkBrackets t u.authority
      checkNetloc t u.authority
      .ok ⟨u.scheme, u.authority, u.path, u.query.getD [], u.fragment.getD []⟩) := by
  have hquestion : '#' ∉ u.path ++ after '?' u.query := by
    intro hmem
    rcases List.mem_append.mp hmem with hpath | hquery
    · exact h.path.2.2 hpath
    · exact notMem_after (by decide) h.query hquery
  unfold urlsplit
  rw [clean_text h, splitScheme_text h]
  simp only [splitNetloc_text h]
  rw [tail, ← List.append_assoc, partition_after hquestion]
  simp only [partition_after h.path.2.1]

theorem urlsplit_readable {t : Tables} (h : u.WellFormed)
    (hreadable : ReadableNetloc t u.authority) :
    urlsplit t (String.ofList u.text) =
      .ok ⟨u.scheme, u.authority, u.path, u.query.getD [], u.fragment.getD []⟩ := by
  obtain ⟨hbrackets, hnormalized⟩ := (readableNetloc_iff t u.authority).mp hreadable
  rw [urlsplit_text t h, hbrackets, hnormalized]
  rfl

/-- An empty query or fragment is as good as none. -/
def optional (text : List Char) : Option (List Char) := if text = [] then none else some text

theorem getD_optional (text : List Char) : (optional text).getD [] = text := by
  by_cases h : text = []
  · simp [optional, h]
  · simp [optional, h]

theorem after_optional (separator : Char) (text : List Char) :
    after separator (optional text) = if text ≠ [] then separator :: text else [] := by
  by_cases h : text = []
  · simp [optional, after, h]
  · simp [optional, after, h]

/-- The parts of a split URL, put together behind its scheme. -/
theorem urlunsplit_eq {r : SplitResult} (hscheme : r.scheme ≠ []) :
    urlunsplit r = String.ofList (r.scheme ++ ':' :: (joinNetloc r ++
      (after '?' (optional r.query) ++ after '#' (optional r.fragment)))) := by
  rw [urlunsplit, if_pos hscheme, after_optional, after_optional]
  by_cases hquery : r.query = []
  · by_cases hfragment : r.fragment = [] <;> simp [hquery, hfragment]
  · by_cases hfragment : r.fragment = [] <;> simp [hquery, hfragment]

/-- With an authority, or with two slashes at the start of the path, `urlunsplit` writes the URL
that it was given the parts of. -/
theorem urlunsplit_text {r : SplitResult} (hscheme : r.scheme ≠ [])
    (hpath : r.path = [] ∨ r.path.head? = some '/')
    (hnetloc : r.netloc ≠ [] ∨ r.path.take 2 = ['/', '/']) :
    urlunsplit r = String.ofList (UrlText.text {
      scheme := r.scheme
      authority := r.netloc
      path := r.path
      query := optional r.query
      fragment := optional r.fragment }) := by
  have hjoin : joinNetloc r = '/' :: '/' :: (r.netloc ++ r.path) := by
    unfold joinNetloc
    by_cases hempty : r.netloc = []
    · have hslashes : r.path.take 2 = ['/', '/'] := hnetloc.resolve_left (not_not_intro hempty)
      rw [if_neg (not_not_intro hempty), if_pos hslashes, hempty]
      rfl
    · have hkeep : ¬ (r.path ≠ [] ∧ r.path.head? ≠ some '/') := by
        rintro ⟨hne, hhead⟩
        exact hpath.elim hne hhead
      rw [if_pos hempty]
      simp only [if_neg hkeep]
      rfl
  rw [urlunsplit_eq hscheme, hjoin, text, tail]
  simp only [List.cons_append, List.append_assoc]

theorem head_separators {query fragment : Option (List Char)} {c : Char} {rest : List Char}
    (h : after '?' query ++ after '#' fragment = c :: rest) : c = '?' ∨ c = '#' := by
  cases query with
  | some query =>
    cases h
    exact Or.inl rfl
  | none =>
    cases fragment with
    | some fragment =>
      cases h
      exact Or.inr rfl
    | none => cases h

/-- Without either the two slashes are gone, and so is the authority. -/
theorem urlunsplit_ne_text {r : SplitResult} (hscheme : r.scheme ≠ [])
    (huses : String.ofList r.scheme ∉ usesNetloc) (hpath : r.path = [] ∨ r.path.head? = some '/')
    (hnetloc : r.netloc = []) (hslashes : r.path.take 2 ≠ ['/', '/']) (u : UrlText)
    (hu : u.scheme = r.scheme) : urlunsplit r ≠ String.ofList u.text := by
  have hjoin : joinNetloc r = r.path := by
    unfold joinNetloc
    rw [if_neg (not_not_intro hnetloc), if_neg hslashes, if_neg fun hmem => huses hmem.2.1]
  rw [urlunsplit_eq hscheme, hjoin]
  intro heq
  have hlist := String.ofList_injective heq
  rw [text, hu] at hlist
  have htail := (List.cons.inj (List.append_cancel_left hlist)).2
  rcases hpath with hempty | hhead
  · rw [hempty, List.nil_append] at htail
    rcases head_separators htail with hc | hc <;> exact absurd hc (by decide)
  · obtain ⟨path, hcons⟩ := List.head?_eq_some_iff.mp hhead
    rw [hcons, List.cons_append] at htail
    have hrest := (List.cons.inj htail).2
    cases path with
    | nil => rcases head_separators hrest with hc | hc <;> exact absurd hc (by decide)
    | cons c path =>
      rw [List.cons_append] at hrest
      have hc := (List.cons.inj hrest).1
      rw [hcons, hc] at hslashes
      exact hslashes rfl

end UrlText

end DataBridge.PyUrl
