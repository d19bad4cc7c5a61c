import Mathlib.Algebra.GroupWithZero.Nat
import Mathlib.Data.List.Basic
import Mathlib.Tactic.Common

namespace DataBridge.SqlLexer

def isWordChar (c : Char) : Bool := c.isAlphanum || c = '_' || 128 ≤ c.toNat

/-- The quoting rules of a dialect: the characters that open and close a quoted token, and whether
a pair of dollar signs does. -/
structure Rules where
  isQuote : Char → Bool
  dollar : Bool
  delimits : ∀ c, isQuote c = true → isWordChar c = false ∧ c ≠ '$'

/-- A quoted token holds its value, in which a doubled delimiter stands for one. -/
inductive Token where
  | word (text : List Char)
  | quoted (delimiter : Char) (value : List Char)
  | symbol (c : Char)
  | body (text : List Char)
  deriving DecidableEq, Repr

/-- Where the lexer stands. A delimiter inside its own token may close it or be doubled, and so may
a dollar sign be the first of a pair. -/
inductive Mode where
  | between
  | word (text : List Char)
  | quoted (delimiter : Char) (value : List Char)
  | closing (delimiter : Char) (value : List Char)
  | dollar
  | body (text : List Char)
  | bodyDollar (text : List Char)
  deriving DecidableEq, Repr

structure State where
  tokens : List Token
  mode : Mode
  deriving DecidableEq, Repr

/-- The tokens with the one that ends here; none ends inside of quotes. -/
def State.flush (s : State) : List Token :=
  match s.mode with
  | .word text => s.tokens ++ [.word text]
  | .closing d value => s.tokens ++ [.quoted d value]
  | .dollar => s.tokens ++ [.symbol '$']
  | .between | .quoted .. | .body _ | .bodyDollar _ => s.tokens

variable (r : Rules)

/-- A character outside of every token. -/
def start (tokens : List Token) (c : Char) : State :=
  if r.isQuote c then ⟨tokens, .quoted c []⟩
  else if r.dollar ∧ c = '$' then ⟨tokens, .dollar⟩
  else if isWordChar c then ⟨tokens, .word [c]⟩
  else if c.isWhitespace then ⟨tokens, .between⟩
  else ⟨tokens ++ [.symbol c], .between⟩

def step (s : State) (c : Char) : State :=
  match s.mode with
  | .between => start r s.flush c
  | .word text => if isWordChar c then ⟨s.tokens, .word (text ++ [c])⟩ else start r s.flush c
  | .quoted d value =>
    if c = d then ⟨s.tokens, .closing d value⟩ else ⟨s.tokens, .quoted d (value ++ [c])⟩
  | .closing d value =>
    if c = d then ⟨s.tokens, .quoted d (value ++ [c])⟩ else start r s.flush c
  | .dollar => if c = '$' then ⟨s.tokens, .body []⟩ else start r s.flush c
  | .body text => if c = '$' then ⟨s.tokens, .bodyDollar text⟩ else ⟨s.tokens, .body (text ++ [c])⟩
  | .bodyDollar text =>
    if c = '$' then ⟨s.tokens ++ [.body text], .between⟩ else ⟨s.tokens, .body (text ++ ['$', c])⟩

def run (s : State) (text : List Char) : State := text.foldl (step r) s

/-- A text that ends inside of quotes has no tokens. -/
def finish (s : State) : Option (List Token) :=
  match s.mode with
  | .quoted .. | .body _ | .bodyDollar _ => none
  | _ => some s.flush

def lex (text : List Char) : Option (List Token) := finish (run r ⟨[], .between⟩ text)

/-! ## Counting a delimiter -/

/-- How often `d` stands in the text of a token. -/
def Token.count (d : Char) : Token → Nat
  | .word _ | .symbol _ => 0
  | .quoted delimiter value => value.count d + if delimiter = d then value.count d + 2 else 0
  | .body text => text.count d

def Mode.count (d : Char) : Mode → Nat
  | .between | .word _ | .dollar => 0
  | .quoted delimiter value => value.count d + if delimiter = d then value.count d + 1 else 0
  | .closing delimiter value => (Token.quoted delimiter value).count d
  | .body text | .bodyDollar text => text.count d

def tokenCount (d : Char) (tokens : List Token) : Nat := (tokens.map (Token.count d)).sum

def State.count (d : Char) (s : State) : Nat := tokenCount d s.tokens + s.mode.count d

theorem tokenCount_append (d : Char) (xs ys : List Token) :
    tokenCount d (xs ++ ys) = tokenCount d xs + tokenCount d ys := by
  simp [tokenCount]

theorem tokenCount_singleton (d : Char) (t : Token) : tokenCount d [t] = t.count d := by
  simp [tokenCount]

variable {r} {d : Char}

theorem start_count (hd : r.isQuote d = true) (tokens : List Token) (c : Char) :
    (start r tokens c).count d = tokenCount d tokens + if c = d then 1 else 0 := by
  unfold start
  by_cases hc : r.isQuote c = true
  · simp [hc, State.count, Mode.count]
  · have hne : c ≠ d := by
      rintro rfl
      exact hc hd
    simp only [if_neg hc, if_neg hne]
    split
    · rfl
    · split
      · rfl
      · split
        · rfl
        · simp [State.count, Mode.count, tokenCount_append, tokenCount_singleton, Token.count]

/-- Every character is counted once, wherever the lexer stands. -/
theorem step_count (hd : r.isQuote d = true) (s : State) (c : Char) :
    (step r s c).count d = s.count d + if c = d then 1 else 0 := by
  obtain ⟨hword, hdollar⟩ := r.delimits d hd
  have hneWord : isWordChar c = true → c ≠ d := by
    rintro hc rfl
    rw [hword] at hc
    cases hc
  obtain ⟨tokens, mode⟩ := s
  cases mode with
  | between => exact start_count hd tokens c
  | word text =>
    by_cases hc : isWordChar c = true
    · simp [step, hc, hneWord hc, State.count, Mode.count]
    · simp only [step, if_neg hc, start_count hd, State.flush]
      simp [State.count, Mode.count, tokenCount_append, tokenCount_singleton, Token.count]
  | quoted delimiter value =>
    by_cases hc : c = delimiter
    · subst hc
      by_cases hd' : c = d
      · simp [step, State.count, Mode.count, Token.count, hd']
        omega
      · simp [step, State.count, Mode.count, Token.count, hd']
    · by_cases hd' : delimiter = d
      · subst hd'
        simp [step, hc, State.count, Mode.count]
      · by_cases hcd : c = d
        · subst hcd
          simp [step, hc, State.count, Mode.count, hd']
          omega
        · simp [step, hc, State.count, Mode.count, hd', hcd]
  | closing delimiter value =>
    by_cases hc : c = delimiter
    · subst hc
      by_cases hd' : c = d
      · simp [step, State.count, Mode.count, Token.count, hd']
        omega
      · simp [step, State.count, Mode.count, Token.count, hd']
    · simp only [step, if_neg hc, start_count hd, State.flush, tokenCount_append,
        tokenCount_singleton]
      rfl
  | dollar =>
    by_cases hc : c = '$'
    · subst hc
      simp [step, State.count, Mode.count, Ne.symm hdollar]
    · simp only [step, if_neg hc, start_count hd, State.flush]
      simp [State.count, Mode.count, tokenCount_append, tokenCount_singleton, Token.count]
  | body text =>
    by_cases hc : c = '$'
    · subst hc
      simp [step, State.count, Mode.count, Ne.symm hdollar]
    · by_cases hcd : c = d
      · subst hcd
        simp [step, State.count, Mode.count, hc]
        omega
      · simp [step, State.count, Mode.count, hc, hcd]
  | bodyDollar text =>
    by_cases hc : c = '$'
    · subst hc
      simp [step, State.count, Mode.count, Ne.symm hdollar, tokenCount_append,
        tokenCount_singleton, Token.count]
    · by_cases hcd : c = d
      · subst hcd
        simp [step, State.count, Mode.count, hc, Ne.symm hdollar]
        omega
      · simp [step, State.count, Mode.count, hc, hcd, Ne.symm hdollar]

theorem run_count (hd : r.isQuote d = true) (s : State) (text : List Char) :
    (run r s text).count d = s.count d + text.count d := by
  induction text generalizing s with
  | nil => rfl
  | cons c text ih =>
    have hcons : run r s (c :: text) = run r (step r s c) text := rfl
    rw [hcons, ih, step_count hd, List.count_cons]
    by_cases hc : c = d
    · simp [hc]
      omega
    · simp [hc]

theorem finish_count {s : State} {tokens : List Token} (h : finish s = some tokens) :
    tokenCount d tokens = s.count d := by
  obtain ⟨before, mode⟩ := s
  cases mode with
  | between | word | dollar =>
    cases h
    simp [State.flush, State.count, Mode.count, tokenCount_append, tokenCount_singleton,
      Token.count]
  | closing delimiter value =>
    cases h
    simp only [State.flush, tokenCount_append, tokenCount_singleton]
    rfl
  | quoted | body | bodyDollar => cases h

/-- The tokens of a text account for every delimiter in it. -/
theorem lex_count (hd : r.isQuote d = true) {text : List Char} {tokens : List Token}
    (h : lex r text = some tokens) : tokenCount d tokens = text.count d := by
  have hrun := run_count hd ⟨[], .between⟩ text
  have hzero : State.count d ⟨[], .between⟩ = 0 := rfl
  rw [hzero, Nat.zero_add] at hrun
  rw [finish_count h, hrun]

/-! ## Texts with names in them -/

/-- A character of the fixed text, or a name between quotes. -/
inductive Atom where
  | char (c : Char)
  | name (delimiter : Char) (value : List Char)
  deriving DecidableEq, Repr

/-- The text in which nothing in a name is doubled. -/
def render (atoms : List Atom) : List Char :=
  atoms.flatMap fun
    | .char c => [c]
    | .name d value => d :: value ++ [d]

variable (r) in
/-- A name is one token, whatever it holds. -/
def atomStep (s : State) : Atom → State
  | .char c => step r s c
  | .name d value => ⟨s.flush, .closing d value⟩

variable (r) in
/-- The fixed text in tokens, with a quoted token for each name. -/
def intended (atoms : List Atom) : List Token := (atoms.foldl (atomStep r) ⟨[], .between⟩).flush

/-- What a place in the text is after. -/
inductive After where
  | text
  | name
  | dollar
  deriving DecidableEq

variable (r) in
/-- No two names touch, no two dollar signs do, and the fixed text has no delimiter. -/
inductive Separated : After → List Atom → Prop
  | nil (a : After) : Separated a []
  | char {a : After} {c : Char} {atoms : List Atom} (hc : r.isQuote c = false)
      (hdollar : a = .dollar → c ≠ '$') (h : Separated (if c = '$' then .dollar else .text) atoms) :
      Separated a (.char c :: atoms)
  | name {a : After} {d : Char} {atoms : List Atom} (value : List Char) (hname : a ≠ .name)
      (hd : r.isQuote d = true) (h : Separated .name atoms) : Separated a (.name d value :: atoms)

def AllNames (P : Char → List Char → Prop) (atoms : List Atom) : Prop :=
  ∀ d value, Atom.name d value ∈ atoms → P d value

/-- No name holds its own delimiter. -/
def Clean (atoms : List Atom) : Prop := AllNames (fun d value => d ∉ value) atoms

variable (r) in
/-- The modes that the lexer may be in at such a place. -/
def Mode.IsAfter : After → Mode → Prop
  | .text, .between | .text, .word _ | .dollar, .dollar | .dollar, .between => True
  | .name, .closing d _ => r.isQuote d = true
  | _, _ => False

theorem notWord_dollar : isWordChar '$' = false := by decide

theorem start_isAfter {c : Char} (hc : r.isQuote c = false) (tokens : List Token) :
    (start r tokens c).mode.IsAfter r (if c = '$' then .dollar else .text) := by
  have hquote : ¬ r.isQuote c = true := by simp [hc]
  unfold start
  rw [if_neg hquote]
  by_cases hdollar : c = '$'
  · subst hdollar
    simp only [notWord_dollar, if_true, and_true]
    split
    · trivial
    · split
      · contradiction
      · split <;> trivial
  · simp only [hdollar, and_false, if_false]
    split
    · trivial
    · split <;> trivial

theorem step_isAfter {s : State} {a : After} {c : Char} (h : s.mode.IsAfter r a)
    (hc : r.isQuote c = false) (hdollar : a = .dollar → c ≠ '$') :
    (step r s c).mode.IsAfter r (if c = '$' then .dollar else .text) := by
  obtain ⟨tokens, mode⟩ := s
  cases mode with
  | between => exact start_isAfter hc _
  | word text =>
    by_cases hword : isWordChar c = true
    · have hne : c ≠ '$' := by
        rintro rfl
        rw [notWord_dollar] at hword
        cases hword
      simp only [step, if_pos hword, if_neg hne]
      trivial
    · simp only [step, if_neg hword]
      exact start_isAfter hc _
  | closing d value =>
    have hd : r.isQuote d = true := by cases a <;> simp_all [Mode.IsAfter]
    have hne : c ≠ d := by
      rintro rfl
      rw [hd] at hc
      cases hc
    simp only [step, if_neg hne]
    exact start_isAfter hc _
  | dollar =>
    have ha : a = .dollar := by cases a <;> simp_all [Mode.IsAfter]
    have hstep : step r ⟨tokens, .dollar⟩ c = start r (tokens ++ [.symbol '$']) c := by
      simp [step, hdollar ha, State.flush]
    rw [hstep]
    exact start_isAfter hc _
  | quoted | body | bodyDollar => cases a <;> cases h

theorem finish_of_isAfter {s : State} {a : After} (h : s.mode.IsAfter r a) :
    finish s = some s.flush := by
  obtain ⟨tokens, mode⟩ := s
  cases mode with
  | between | word | closing | dollar => rfl
  | quoted | body | bodyDollar => cases a <;> cases h

/-- A name is read as it is where nothing in it closes the token. -/
theorem run_name {s : State} {a : After} {d : Char} {value : List Char} (h : s.mode.IsAfter r a)
    (hname : a ≠ .name) (hd : r.isQuote d = true) (hvalue : d ∉ value) :
    run r s (d :: value ++ [d]) = ⟨s.flush, .closing d value⟩ := by
  obtain ⟨hword, hdollar⟩ := r.delimits d hd
  have hopen : step r s d = ⟨s.flush, .quoted d []⟩ := by
    obtain ⟨tokens, mode⟩ := s
    cases mode with
    | between => simp [step, start, hd]
    | word text => simp [step, start, hd, hword]
    | dollar => simp [step, start, hd, hdollar]
    | closing | quoted | body | bodyDollar => cases a <;> simp_all [Mode.IsAfter]
  have hinside : ∀ before rest : List Char, d ∉ rest →
      run r ⟨s.flush, .quoted d before⟩ rest = ⟨s.flush, .quoted d (before ++ rest)⟩ := by
    intro before rest
    induction rest generalizing before with
    | nil => simp [run]
    | cons c rest ih =>
      intro hrest
      have hne : c ≠ d := fun heq => hrest (by simp [heq])
      have hcons : run r ⟨s.flush, .quoted d before⟩ (c :: rest) =
          run r ⟨s.flush, .quoted d (before ++ [c])⟩ rest := by simp [run, step, hne]
      rw [hcons, ih _ fun hmem => hrest (List.mem_cons_of_mem _ hmem)]
      simp
  have happend : run r s (d :: value ++ [d]) = step r (run r (step r s d) value) d := by
    simp [run]
  rw [happend, hopen, hinside [] value hvalue]
  simp [step]

variable {atoms : List Atom} {a : After} {s : State}

theorem foldl_isAfter (h : Separated r a atoms) (hs : s.mode.IsAfter r a) :
    ∃ a', (atoms.foldl (atomStep r) s).mode.IsAfter r a' := by
  induction atoms generalizing s a with
  | nil => exact ⟨a, hs⟩
  | cons atom atoms ih =>
    cases atom with
    | char c =>
      obtain _ | ⟨hc, hdollar, hrest⟩ := h
      exact ih hrest (step_isAfter hs hc hdollar)
    | name d value =>
      obtain _ | _ | ⟨_, -, hd, hrest⟩ := h
      exact ih hrest hd

/-- Where every name is clean, the text is read as it is meant. -/
theorem run_render (h : Separated r a atoms) (hs : s.mode.IsAfter r a) (hclean : Clean atoms) :
    run r s (render atoms) = atoms.foldl (atomStep r) s := by
  induction atoms generalizing s a with
  | nil => rfl
  | cons atom atoms ih =>
    have hclean' : Clean atoms := fun d value hmem => hclean d value (List.mem_cons_of_mem _ hmem)
    cases atom with
    | char c =>
      obtain _ | ⟨hc, hdollar, hrest⟩ := h
      exact ih hrest (step_isAfter hs hc hdollar) hclean'
    | name d value =>
      obtain _ | _ | ⟨_, hname, hd, hrest⟩ := h
      have hsplit : run r s (render (.name d value :: atoms)) =
          run r (run r s (d :: value ++ [d])) (render atoms) := by
        simp [render, run]
      rw [hsplit, run_name hs hname hd (hclean d value List.mem_cons_self)]
      exact ih hrest hd hclean'

/-- The delimiters that a token for the name accounts for. -/
def Atom.count (d : Char) : Atom → Nat
  | .char _ => 0
  | .name delimiter value => (Token.quoted delimiter value).count d

/-- The delimiters in the name itself, which its token accounts for twice. -/
def Atom.inside (d : Char) : Atom → Nat
  | .char _ => 0
  | .name delimiter value => if delimiter = d then value.count d else 0

theorem ne_of_isQuote {c : Char} (hd : r.isQuote d = true) (hc : r.isQuote c = false) : c ≠ d := by
  rintro rfl
  rw [hd] at hc
  cases hc

theorem foldl_count (hd : r.isQuote d = true) (h : Separated r a atoms) (hs : s.mode.IsAfter r a) :
    (atoms.foldl (atomStep r) s).count d = s.count d + (atoms.map (Atom.count d)).sum := by
  induction atoms generalizing s a with
  | nil => rfl
  | cons atom atoms ih =>
    rw [List.foldl_cons, List.map_cons, List.sum_cons]
    cases atom with
    | char c =>
      obtain _ | ⟨hc, hdollar, hrest⟩ := h
      have hne : c ≠ d := ne_of_isQuote hd hc
      have hstep : atomStep r s (.char c) = step r s c := rfl
      rw [hstep, ih hrest (step_isAfter hs hc hdollar), step_count hd, if_neg hne]
      simp [Atom.count]
    | name delimiter value =>
      obtain _ | _ | ⟨_, -, hdelimiter, hrest⟩ := h
      have hflush := finish_count (d := d) (finish_of_isAfter hs)
      have hname : (atomStep r s (.name delimiter value)).count d =
          s.count d + (Atom.name delimiter value).count d := by
        rw [← hflush]
        rfl
      rw [ih hrest (s := atomStep r s (.name delimiter value)) hdelimiter, hname, Nat.add_assoc]

theorem count_render (hd : r.isQuote d = true) (h : Separated r a atoms) :
    (render atoms).count d + (atoms.map (Atom.inside d)).sum = (atoms.map (Atom.count d)).sum := by
  induction atoms generalizing a with
  | nil => rfl
  | cons atom atoms ih =>
    cases atom with
    | char c =>
      obtain _ | ⟨hc, hdollar, hrest⟩ := h
      have hne : c ≠ d := ne_of_isQuote hd hc
      have hcount : (render (.char c :: atoms)).count d = (render atoms).count d := by
        simp [render, hne]
      simp only [hcount, List.map_cons, List.sum_cons, Atom.inside, Atom.count, Nat.zero_add]
      exact ih hrest
    | name delimiter value =>
      obtain _ | _ | ⟨_, -, -, hrest⟩ := h
      have hih := ih hrest
      have hcount : (render (.name delimiter value :: atoms)).count d =
          value.count d + (if delimiter = d then 2 else 0) + (render atoms).count d := by
        by_cases hdelimiter : delimiter = d
        · simp [render, hdelimiter]
          omega
        · simp [render, hdelimiter]
      rw [hcount, List.map_cons, List.map_cons, List.sum_cons, List.sum_cons, ← hih, Atom.count,
        Atom.inside, Token.count]
      by_cases hdelimiter : delimiter = d
      · simp only [if_pos hdelimiter]
        omega
      · simp only [if_neg hdelimiter]
        omega

theorem isQuote_of_mem {d : Char} {value : List Char} (h : Separated r a atoms)
    (hmem : Atom.name d value ∈ atoms) : r.isQuote d = true := by
  induction atoms generalizing a with
  | nil => cases hmem
  | cons atom atoms ih =>
    rcases List.mem_cons.mp hmem with heq | htail
    · subst heq
      cases h
      assumption
    · cases h with
      | char hc hdollar hrest => exact ih hrest htail
      | name value' hname hd hrest => exact ih hrest htail

/-- The text is read as it is meant exactly where no name holds its own delimiter. -/
theorem lex_render_iff (h : Separated r .text atoms) :
    lex r (render atoms) = some (intended r atoms) ↔ Clean atoms := by
  have hbetween : (⟨[], .between⟩ : State).mode.IsAfter r .text := trivial
  obtain ⟨a', hend⟩ := foldl_isAfter h hbetween
  have hfinish := finish_of_isAfter hend
  constructor
  · intro hlex d value hmem
    have hd : r.isQuote d = true := isQuote_of_mem h hmem
    have htext := lex_count hd hlex
    have htokens := finish_count (d := d) hfinish
    rw [foldl_count hd h hbetween] at htokens
    have hcount := count_render hd h
    have hzero : (⟨[], .between⟩ : State).count d = 0 := rfl
    have hinside : (atoms.map (Atom.inside d)).sum = 0 := by
      rw [intended] at htext
      omega
    have hvalue := List.sum_eq_zero_iff_forall_eq_nat.mp hinside _ (List.mem_map_of_mem hmem)
    simpa [Atom.inside, List.count_eq_zero] using hvalue
  · intro hclean
    rw [lex, run_render h hbetween hclean, hfinish, intended]

/-! ## Between dollar signs -/

def Mode.pending : Mode → Nat
  | .between => 0
  | _ => 1

/-- The tokens there will be at least. -/
def State.size (s : State) : Nat := s.tokens.length + s.mode.pending

theorem start_size (tokens : List Token) (c : Char) :
    tokens.length ≤ (start r tokens c).size ∧
      (c.isWhitespace = false ∨ (start r tokens c).mode ≠ .between →
        tokens.length < (start r tokens c).size) := by
  unfold start
  split
  · simp [State.size, Mode.pending]
  split
  · simp [State.size, Mode.pending]
  split
  · simp [State.size, Mode.pending]
  split
  · rename_i hspace
    simp [State.size, Mode.pending, hspace]
  · simp [State.size, Mode.pending]

theorem step_size (s : State) (c : Char) : s.size ≤ (step r s c).size := by
  obtain ⟨tokens, mode⟩ := s
  have hstart : ∀ token, tokens.length + 1 ≤ (start r (tokens ++ [token]) c).size := by
    intro token
    have hsize := (start_size (r := r) (tokens ++ [token]) c).1
    rwa [List.length_append, List.length_singleton] at hsize
  cases mode with
  | between => exact (start_size tokens c).1
  | word text =>
    simp only [step]
    split
    · exact Nat.le_refl _
    · exact hstart (.word text)
  | quoted d value =>
    simp only [step]
    split <;> exact Nat.le_refl _
  | closing d value =>
    simp only [step]
    split
    · exact Nat.le_refl _
    · exact hstart (.quoted d value)
  | dollar =>
    simp only [step]
    split
    · exact Nat.le_refl _
    · exact hstart (.symbol '$')
  | body text =>
    simp only [step]
    split <;> exact Nat.le_refl _
  | bodyDollar text =>
    simp only [step]
    split <;> simp [State.size, Mode.pending]

theorem run_size (s : State) (text : List Char) : s.size ≤ (run r s text).size := by
  induction text generalizing s with
  | nil => exact Nat.le_refl _
  | cons c text ih => exact Nat.le_trans (step_size s c) (ih (step r s c))

/-- A dollar sign is never passed over. -/
theorem size_lt_run_dollar {s : State} (hs : s.mode = .between) (text : List Char) :
    s.size < (run r s (text ++ ['$'])).size := by
  induction text generalizing s with
  | nil =>
    obtain ⟨tokens, mode⟩ := s
    cases hs
    exact (start_size tokens '$').2 (Or.inl (by decide))
  | cons c text ih =>
    have hcons : run r s (c :: text ++ ['$']) = run r (step r s c) (text ++ ['$']) := rfl
    rw [hcons]
    by_cases hmode : (step r s c).mode = .between
    · exact Nat.lt_of_le_of_lt (step_size s c) (ih hmode)
    · obtain ⟨tokens, mode⟩ := s
      cases hs
      exact Nat.lt_of_lt_of_le ((start_size tokens c).2 (Or.inr hmode)) (run_size _ _)

theorem finish_size {s : State} {tokens : List Token} (h : finish s = some tokens) :
    tokens.length = s.size := by
  obtain ⟨before, mode⟩ := s
  cases mode with
  | between | word | dollar | closing =>
    cases h
    simp [State.flush, State.size, Mode.pending]
  | quoted | body | bodyDollar => cases h

theorem pair_infix_of_ne {c : Char} {text : List Char} (h : ¬ ['$', '$'] <+: c :: text) :
    ['$', '$'] <:+: c :: text ↔ ['$', '$'] <:+: text := by
  rw [List.infix_cons_iff]
  exact or_iff_right h

/-- A body without a pair of dollar signs is read to its end; another one ends at the first pair. -/
theorem run_body (tokens : List Token) : ∀ before text : List Char,
    text.getLast? ≠ some '$' →
      ¬ ['$', '$'] <:+: text ∧
          run r ⟨tokens, .body before⟩ text = ⟨tokens, .body (before ++ text)⟩ ∨
        ['$', '$'] <:+: text ∧ ∃ inside rest,
          run r ⟨tokens, .body before⟩ text = run r ⟨tokens ++ [.body inside], .between⟩ rest
  | before, [], _ => Or.inl ⟨by simp, by simp [run]⟩
  | before, [c], hlast => by
    have hc : c ≠ '$' := by simpa using hlast
    refine Or.inl ⟨?_, by simp [run, step, hc]⟩
    intro hpair
    simpa using hpair.length_le
  | before, c :: c' :: text, hlast => by
    have hlast' : (c' :: text).getLast? ≠ some '$' := by simpa using hlast
    by_cases hc : c = '$'
    · by_cases hc' : c' = '$'
      · refine Or.inr ⟨⟨[], text, by simp [hc, hc']⟩, before, text, ?_⟩
        simp [run, step, hc, hc']
      · have hlast'' : text.getLast? ≠ some '$' := by
          cases text with
          | nil => simp
          | cons d text => simpa using hlast'
        have hstep : run r ⟨tokens, .body before⟩ (c :: c' :: text) =
            run r ⟨tokens, .body (before ++ ['$', c'])⟩ text := by simp [run, step, hc, hc']
        have hpair : ['$', '$'] <:+: c :: c' :: text ↔ ['$', '$'] <:+: text := by
          rw [pair_infix_of_ne (by simp [Ne.symm hc']), pair_infix_of_ne (by simp [Ne.symm hc'])]
        rw [hstep, hpair]
        have ih := run_body tokens (before ++ ['$', c']) text hlast''
        rw [hc]
        rwa [List.append_assoc] at ih
    · have hstep : run r ⟨tokens, .body before⟩ (c :: c' :: text) =
          run r ⟨tokens, .body (before ++ [c])⟩ (c' :: text) := by simp [run, step, hc]
      have hpair : ['$', '$'] <:+: c :: c' :: text ↔ ['$', '$'] <:+: c' :: text :=
        pair_infix_of_ne (by simp [Ne.symm hc])
      rw [hstep, hpair]
      have ih := run_body tokens (before ++ [c]) (c' :: text) hlast'
      rwa [List.append_assoc, List.singleton_append] at ih

/-- A body is one token with all of its text exactly where it has no pair of dollar signs. -/
theorem finish_body_iff {tokens : List Token} {text body : List Char}
    (hlast : text.getLast? ≠ some '$') :
    finish (run r ⟨tokens, .body []⟩ (text ++ ['$', '$'])) = some (tokens ++ [.body body]) ↔
      ¬ ['$', '$'] <:+: text ∧ body = text := by
  have happend : run r ⟨tokens, .body []⟩ (text ++ ['$', '$']) =
      run r (run r ⟨tokens, .body []⟩ text) ['$', '$'] := by simp [run]
  rw [happend]
  rcases run_body (r := r) tokens [] text hlast with hwhole | hcut
  · rw [hwhole.2, List.nil_append]
    have hclosed : run r ⟨tokens, .body text⟩ ['$', '$'] =
        ⟨tokens ++ [.body text], .between⟩ := by simp [run, step]
    rw [hclosed]
    simp [finish, State.flush, hwhole.1, eq_comm]
  · obtain ⟨hpair, inside, rest, hrun⟩ := hcut
    rw [hrun]
    have hsplit : run r (run r ⟨tokens ++ [.body inside], .between⟩ rest) ['$', '$'] =
        run r ⟨tokens ++ [.body inside], .between⟩ (rest ++ ['$'] ++ ['$']) := by simp [run]
    rw [hsplit]
    constructor
    · intro hfinish
      have hsize := size_lt_run_dollar (r := r) (s := ⟨tokens ++ [.body inside], .between⟩) rfl
        (rest ++ ['$'])
      rw [← finish_size hfinish] at hsize
      simp [State.size, Mode.pending] at hsize
    · intro hclean
      exact absurd hpair hclean.1

theorem pair_infix_append {c : Char} (hc : c ≠ '$') {s t : List Char}
    (h : ['$', '$'] <:+: s ++ c :: t) : ['$', '$'] <:+: s ∨ ['$', '$'] <:+: t := by
  induction s with
  | nil =>
    rw [List.nil_append, pair_infix_of_ne (by simp [Ne.symm hc])] at h
    exact Or.inr h
  | cons b s ih =>
    rcases List.infix_cons_iff.mp h with hstart | hpair
    · cases s with
      | nil => simp [Ne.symm hc] at hstart
      | cons b' s =>
        have hboth : '$' = b ∧ '$' = b' := by simpa using hstart
        obtain ⟨rfl, rfl⟩ := hboth
        exact Or.inl ⟨[], s, rfl⟩
    · rcases ih hpair with hs | ht
      · exact Or.inl (List.infix_cons_iff.mpr (Or.inr hs))
      · exact Or.inr ht

theorem exists_of_pair_in_render (h : Separated r a atoms) (hpair : ['$', '$'] <:+: render atoms) :
    ∃ d value, Atom.name d value ∈ atoms ∧ ['$', '$'] <:+: value := by
  induction h with
  | nil => simp [render] at hpair
  | @char a c atoms hc hdollar hrest ih =>
    have hne : ¬ ['$', '$'] <+: c :: render atoms := by
      intro hstart
      simp only [List.cons_prefix_cons] at hstart
      obtain ⟨rfl, hnext⟩ := hstart
      rw [if_pos rfl] at hrest
      cases hrest with
      | nil => simp [render] at hnext
      | char hc' hdollar' hrest' =>
        simp only [render, List.flatMap_cons, List.singleton_append, List.cons_prefix_cons] at hnext
        exact hdollar' rfl hnext.1.symm
      | name value hname hd hrest' =>
        simp only [render, List.flatMap_cons, List.cons_append, List.cons_prefix_cons] at hnext
        exact (r.delimits _ hd).2 hnext.1.symm
    obtain ⟨d, value, hmem, hvalue⟩ := ih ((pair_infix_of_ne hne).mp hpair)
    exact ⟨d, value, List.mem_cons_of_mem _ hmem, hvalue⟩
  | @name a d atoms value hname hd hrest ih =>
    have hdollar := (r.delimits d hd).2
    have hrender : render (.name d value :: atoms) = d :: (value ++ d :: render atoms) := by
      simp [render]
    rw [hrender, pair_infix_of_ne (by simp [Ne.symm hdollar])] at hpair
    rcases pair_infix_append hdollar hpair with hvalue | htail
    · exact ⟨d, value, List.mem_cons_self, hvalue⟩
    · obtain ⟨d', value', hmem, hvalue⟩ := ih htail
      exact ⟨d', value', List.mem_cons_of_mem _ hmem, hvalue⟩

theorem pair_in_render_of_exists
    (h : ∃ d value, Atom.name d value ∈ atoms ∧ ['$', '$'] <:+: value) :
    ['$', '$'] <:+: render atoms := by
  obtain ⟨d, value, hmem, hvalue⟩ := h
  obtain ⟨before, rest, rfl⟩ := List.append_of_mem hmem
  have hinside : value <:+: render (before ++ .name d value :: rest) :=
    ⟨render before ++ [d], d :: render rest, by simp [render]⟩
  exact hvalue.trans hinside

/-- A pair of dollar signs in the text is a pair in a name. -/
theorem pair_infix_render_iff (h : Separated r a atoms) :
    ¬ ['$', '$'] <:+: render atoms ↔ AllNames (fun _ value => ¬ ['$', '$'] <:+: value) atoms := by
  have hiff : ['$', '$'] <:+: render atoms ↔
      ∃ d value, Atom.name d value ∈ atoms ∧ ['$', '$'] <:+: value :=
    ⟨exists_of_pair_in_render h, pair_in_render_of_exists⟩
  rw [hiff]
  constructor
  · exact fun hnone d value hmem hvalue => hnone ⟨d, value, hmem, hvalue⟩
  · rintro hall ⟨d, value, hmem, hvalue⟩
    exact hall d value hmem hvalue

end DataBridge.SqlLexer
