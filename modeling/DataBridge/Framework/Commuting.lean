import Mathlib.Data.List.Perm.Basic
import Mathlib.Tactic.Common

namespace DataBridge.Commuting

variable {σ α : Type} {f : σ → α → σ}

/-- What stands before the first occurrence of an element that comes first elsewhere. -/
theorem filter_before_eq_nil {p : α → Bool} {a : α} {l before after : List α} (ha : p a = true)
    (hfirst : a ∉ before) (h : (a :: l).filter p = (before ++ a :: after).filter p) :
    before.filter p = [] := by
  rw [List.filter_append, List.filter_cons_of_pos ha] at h
  cases hb : before.filter p with
  | nil => rfl
  | cons x xs =>
    rw [hb, List.cons_append] at h
    have hx : x ∈ before.filter p := by simp [hb]
    have hhead : a = x := (List.cons.inj h).1
    exact absurd (hhead ▸ List.mem_of_mem_filter hx) hfirst

/-- A step that commutes with those before it may be taken first. -/
theorem foldl_middle {a : α} {before : List α} (h : ∀ b ∈ before, ∀ s, f (f s b) a = f (f s a) b)
    (after : List α) (s : σ) :
    (before ++ a :: after).foldl f s = (a :: (before ++ after)).foldl f s := by
  induction before generalizing s with
  | nil => rfl
  | cons b before ih =>
    rw [List.cons_append, List.foldl_cons, ih (fun c hc => h c (List.mem_cons_of_mem b hc))]
    rw [List.foldl_cons, h b List.mem_cons_self]
    rfl

variable [DecidableEq α] (dependent : α → α → Prop)

/-- Two lists of the same elements, in which dependent ones stand in the same order. -/
structure SameOrder (l l' : List α) : Prop where
  perm : l.Perm l'
  order : ∀ a b, dependent a b →
    (l.filter fun x => x = a ∨ x = b) = l'.filter fun x => x = a ∨ x = b

namespace SameOrder

variable {dependent}

/-- Nothing that stands before the first occurrence of the other list's head depends on it. -/
theorem independent {a b : α} {l before after : List α}
    (h : SameOrder dependent (a :: l) (before ++ a :: after)) (hfirst : a ∉ before)
    (hb : b ∈ before) : ¬ dependent a b := by
  intro hdep
  have hnil := filter_before_eq_nil (p := fun x => x = a ∨ x = b) (by simp) hfirst
    (h.order a b hdep)
  have hmem : b ∈ before.filter fun x => x = a ∨ x = b := List.mem_filter.mpr ⟨hb, by simp⟩
  rw [hnil] at hmem
  cases hmem

theorem tail {a : α} {l before after : List α}
    (h : SameOrder dependent (a :: l) (before ++ a :: after)) (hfirst : a ∉ before) :
    SameOrder dependent l (before ++ after) := by
  refine ⟨List.Perm.cons_inv (h.perm.trans List.perm_middle), ?_⟩
  intro c d hdep
  have horder := h.order c d hdep
  by_cases ha : a = c ∨ a = d
  · have hnil := filter_before_eq_nil (by simpa using ha) hfirst horder
    rw [List.filter_append, hnil, List.filter_cons_of_pos (by simpa using ha),
      List.filter_cons_of_pos (by simpa using ha)] at horder
    rw [List.filter_append, hnil]
    exact (List.cons.inj horder).2
  · rw [List.filter_append, List.filter_cons_of_neg (by simpa using ha),
      List.filter_cons_of_neg (by simpa using ha)] at horder
    rw [List.filter_append]
    exact horder

end SameOrder

variable {dependent}

/-- Where independent steps commute, the order of dependent ones decides. -/
theorem foldl_eq {l l' : List α} (h : SameOrder dependent l l')
    (hcomm : ∀ a ∈ l, ∀ b ∈ l, a ≠ b → ¬ dependent a b → ∀ s, f (f s b) a = f (f s a) b)
    (s : σ) : l.foldl f s = l'.foldl f s := by
  induction l generalizing l' s with
  | nil => rw [List.nil_perm.mp h.perm]
  | cons a l ih =>
    have hmem : a ∈ l' := h.perm.subset List.mem_cons_self
    obtain ⟨before, after, heq, hfirst⟩ := List.eq_append_cons_of_mem hmem
    subst heq
    have hback : ∀ b ∈ before, b ∈ a :: l := by
      intro b hb
      exact h.perm.symm.subset (List.mem_append_left _ hb)
    have hswap : ∀ b ∈ before, ∀ s, f (f s b) a = f (f s a) b := by
      intro b hb
      have hne : a ≠ b := fun he => hfirst (he ▸ hb)
      exact hcomm a List.mem_cons_self b (hback b hb) hne (h.independent hfirst hb)
    rw [foldl_middle hswap, List.foldl_cons, List.foldl_cons]
    apply ih (h.tail hfirst)
    exact fun b hb c hc => hcomm b (List.mem_cons_of_mem a hb) c (List.mem_cons_of_mem a hc)

end DataBridge.Commuting
