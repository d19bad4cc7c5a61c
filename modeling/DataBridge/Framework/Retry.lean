import DataBridge.Framework.Call

namespace DataBridge

section blocks

variable {α : Type} {p : α → Prop} {block : List α}

private theorem prefix_of_separated {l l' : List α} {c : α} (hblock : ∀ x ∈ block, p x)
    (hc : ¬ p c) (h : block <+: l ++ c :: l') : block <+: l := by
  induction l generalizing block with
  | nil =>
    rcases List.prefix_cons_iff.mp h with hnil | hcons
    · exact hnil ▸ List.nil_prefix
    · obtain ⟨t, ht, -⟩ := hcons
      exact absurd (hblock c (by rw [ht]; exact List.mem_cons_self)) hc
  | cons a l ih =>
    rcases List.prefix_cons_iff.mp h with hnil | hcons
    · rw [hnil]
      exact List.nil_prefix
    · obtain ⟨t, ht, hrest⟩ := hcons
      subst ht
      rw [List.prefix_cons_inj]
      exact ih (fun x hx => hblock x (List.mem_cons_of_mem a hx)) hrest

/-- A block of elements with `p` lies on one side of an element without. -/
theorem infix_of_separated {l l' : List α} {c : α} (hblock : ∀ x ∈ block, p x) (hc : ¬ p c)
    (h : block <:+: l ++ c :: l') : block <:+: l ∨ block <:+: l' := by
  induction l with
  | nil =>
    rcases List.infix_cons_iff.mp h with hfirst | hrest
    · exact Or.inl (prefix_of_separated (l := []) hblock hc hfirst).isInfix
    · exact Or.inr hrest
  | cons a l ih =>
    rcases List.infix_cons_iff.mp h with hfirst | hrest
    · exact Or.inl (prefix_of_separated (l := a :: l) hblock hc hfirst).isInfix
    · exact (ih hrest).imp_left fun hl => List.infix_cons_iff.mpr (Or.inr hl)

/-- A block of elements with `p` does not reach into a list without. -/
theorem infix_of_without {l l' : List α} (hblock : ∀ x ∈ block, p x) (hl : ∀ x ∈ l, ¬ p x)
    (h : block <:+: l ++ l') : block <:+: l' := by
  induction l with
  | nil => exact h
  | cons a l ih =>
    have hrest : ∀ x ∈ l, ¬ p x := fun x hx => hl x (List.mem_cons_of_mem a hx)
    rcases infix_of_separated (l := []) hblock (hl a List.mem_cons_self) h with hnil | hin
    · rw [List.infix_nil.mp hnil]
      exact List.nil_infix
    · exact ih hrest hin

/-- A block of elements with `p` lies on one side of a gap without. -/
theorem infix_of_gap {l gap l' : List α} (hblock : ∀ x ∈ block, p x) (hgap : ∀ x ∈ gap, ¬ p x)
    (hne : gap ≠ []) (h : block <:+: l ++ gap ++ l') : block <:+: l ∨ block <:+: l' := by
  cases gap with
  | nil => exact absurd rfl hne
  | cons c gap =>
    have hsplit : block <:+: l ++ c :: (gap ++ l') := by simpa using h
    refine (infix_of_separated hblock (hgap c List.mem_cons_self) hsplit).imp_right ?_
    exact infix_of_without hblock fun x hx => hgap x (List.mem_cons_of_mem c hx)

end blocks

namespace Retry

variable {κ ε : Type}

/-- A log of calls and how each ended. -/
abbrev Log (κ ε : Type) := List (κ × Outcome ε Unit)

/-- Calls of `call` that all raised. -/
def Failed (call : κ) (log : Log κ ε) : Prop := ∀ c ∈ log, c.1 = call ∧ ∃ e, c.2 = .raised e

/-- `call` was tried until it returned, after at most `r` failures. -/
def Tried (r : Nat) (call : κ) (log : Log κ ε) : Prop :=
  ∃ failures, Failed call failures ∧ failures.length ≤ r ∧ log = failures ++ [(call, .returned ())]

/-- `call` was given up after its last retry. -/
structure GaveUp (r : Nat) (call : κ) (log : Log κ ε) : Prop where
  failed : Failed call log
  length : log.length = r + 1

/-- Calls each tried until they returned. -/
inductive Settled (r : Nat) : Log κ ε → Prop where
  | nil : Settled r []
  | snoc {log tries : Log κ ε} {call : κ} (h : Settled r log) (htries : Tried r call tries) :
      Settled r (log ++ tries)

/-- A loop that reads and writes a position at a time, up to `n`: its rounds, where it stands, and
the log. -/
inductive Rounds (r n : Nat) (read write : Nat → κ) (next : Nat → Nat) :
    Nat → Nat → Log κ ε → Prop where
  | start : Rounds r n read write next 0 0 []
  | round {k o : Nat} {log reads writes : Log κ ε} (h : Rounds r n read write next k o log)
      (hlt : o < n) (hread : Tried r (read o) reads) (hwrite : Tried r (write o) writes) :
      Rounds r n read write next (k + 1) (next o) (log ++ reads ++ writes)

variable {r n : Nat} {call : κ} {log tries block : Log κ ε}

theorem failed_nil : Failed call ([] : Log κ ε) := fun _ h => (by cases h)

theorem Failed.snoc (h : Failed call log) (e : ε) : Failed call (log ++ [(call, .raised e)]) := by
  intro c hc
  rcases List.mem_append.mp hc with hold | hnew
  · exact h c hold
  · rw [List.mem_singleton.mp hnew]
    exact ⟨rfl, e, rfl⟩

theorem Tried.length_le (h : Tried r call tries) : tries.length ≤ r + 1 := by
  obtain ⟨failures, -, hle, heq⟩ := h
  rw [heq, List.length_append, List.length_singleton]
  omega

theorem Tried.calls (h : Tried r call tries) : ∀ c ∈ tries, c.1 = call := by
  obtain ⟨failures, hfailed, -, heq⟩ := h
  intro c hc
  rw [heq] at hc
  rcases List.mem_append.mp hc with hold | hnew
  · exact (hfailed c hold).1
  · rw [List.mem_singleton.mp hnew]

theorem Tried.ne_nil (h : Tried r call tries) : tries ≠ [] := by
  obtain ⟨failures, -, -, heq⟩ := h
  rw [heq]
  simp

/-- Past calls that returned in the end, a block of failures is short or lies in what follows. -/
theorem Settled.failed_block (h : Settled r log) (hblock : Failed call block) {tail : Log κ ε}
    (hin : block <:+: log ++ tail) : block <:+: tail ∨ block.length ≤ r := by
  induction h generalizing tail with
  | nil => exact Or.inl hin
  | @snoc log tries call' hlog htries ih =>
    obtain ⟨failures, -, hle, heq⟩ := htries
    subst heq
    have hret : ¬ (fun c : κ × Outcome ε Unit => c.1 = call ∧ ∃ e, c.2 = .raised e)
        (call', .returned ()) := by
      intro hraised
      obtain ⟨-, e, he⟩ := hraised
      cases he
    have hsplit : block <:+: (log ++ failures) ++ (call', .returned ()) :: tail := by
      simpa using hin
    rcases infix_of_separated hblock hret hsplit with hbefore | hafter
    · rcases ih hbefore with hfailures | hshort
      · exact Or.inr (Nat.le_trans hfailures.length_le hle)
      · exact Or.inr hshort
    · exact Or.inl hafter

section rounds

variable {read write : Nat → κ} {next : Nat → Nat} {k o : Nat}
  (h : Rounds r n read write next k o log)
include h

theorem Rounds.settled : Settled r log := by
  induction h with
  | start => exact .nil
  | round _ _ hread hwrite ih => exact (ih.snoc hread).snoc hwrite

theorem Rounds.calls : ∀ c ∈ log, ∃ p, c.1 = read p ∨ c.1 = write p := by
  induction h with
  | start => simp
  | @round k o log reads writes _ _ hreads hwrites ih =>
    intro c hc
    rcases List.mem_append.mp hc with hbefore | hnow
    · rcases List.mem_append.mp hbefore with hold | hnow
      · exact ih c hold
      · exact ⟨o, Or.inl (hreads.calls c hnow)⟩
    · exact ⟨o, Or.inr (hwrites.calls c hnow)⟩

/-- Every read is below where the loop stands, and was tried at most `r + 1` times. -/
theorem Rounds.reads_at (p : Nat) (isRead : κ → Bool)
    (hread : ∀ q, isRead (read q) = true → q = p) (hwrite : ∀ q, isRead (write q) = false)
    (hnext : ∀ o, o < n → o < next o) :
    log.countP (fun c => isRead c.1) ≤ if p < o then r + 1 else 0 := by
  induction h with
  | start => simp
  | @round k o log reads writes _ hlt hreads hwrites ih =>
    have hgrow := hnext o hlt
    have hnone : writes.countP (fun c => isRead c.1) = 0 := by
      rw [List.countP_eq_zero]
      intro c hc
      rw [hwrites.calls c hc, hwrite]
      decide
    have hsome : reads.countP (fun c => isRead c.1) ≤ if p = o then r + 1 else 0 := by
      split
      · exact Nat.le_trans List.countP_le_length hreads.length_le
      · rename_i hpo
        rw [Nat.le_zero, List.countP_eq_zero]
        intro c hc
        rw [hreads.calls c hc]
        exact fun heq => hpo (hread o heq).symm
    rw [List.countP_append, List.countP_append, hnone]
    split at ih <;> split at hsome <;> split <;> omega

/-- All reads together. -/
theorem Rounds.reads_le (isRead : κ → Bool) (hwrite : ∀ q, isRead (write q) = false) :
    log.countP (fun c => isRead c.1) ≤ (r + 1) * k := by
  induction h with
  | start => simp
  | @round k o log reads writes _ _ hreads hwrites ih =>
    have hnone : writes.countP (fun c => isRead c.1) = 0 := by
      rw [List.countP_eq_zero]
      intro c hc
      rw [hwrites.calls c hc, hwrite]
      decide
    have hle : reads.countP (fun c => isRead c.1) ≤ r + 1 :=
      Nat.le_trans List.countP_le_length hreads.length_le
    rw [List.countP_append, List.countP_append, hnone, Nat.mul_succ]
    omega

/-- A block without a read lies in the writes of one round. -/
theorem Rounds.writes_le (isRead : κ → Bool) (hread : ∀ q, isRead (read q) = true)
    (hblock : ∀ c ∈ block, isRead c.1 = false) (hin : block <:+: log) : block.length ≤ r + 1 := by
  induction h with
  | start => rw [List.infix_nil.mp hin]; exact Nat.zero_le _
  | @round k o log reads writes _ _ hreads hwrites ih =>
    have hgap : ∀ c ∈ reads, ¬ isRead c.1 = false := by
      intro c hc
      rw [hreads.calls c hc, hread]
      decide
    rcases infix_of_gap (p := fun c => isRead c.1 = false) hblock hgap hreads.ne_nil hin with
      hbefore | hafter
    · exact ih hbefore
    · exact Nat.le_trans hafter.length_le hwrites.length_le

end rounds

end Retry

end DataBridge
