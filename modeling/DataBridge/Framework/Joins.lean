import Mathlib.Data.List.Basic
import Mathlib.Tactic.Common

namespace DataBridge.Joins

variable {α β γ : Type}

/-- `xs JOIN ys ON on`. -/
def inner (on : α → β → Bool) (xs : List α) (ys : List β) : List (α × β) :=
  xs.flatMap fun x => (ys.filter (on x)).map fun y => (x, y)

/-- `xs LEFT JOIN ys ON on`: a row that meets none of the others stays, alone. -/
def left (on : α → β → Bool) (xs : List α) (ys : List β) : List (α × Option β) :=
  xs.flatMap fun x =>
    match ys.filter (on x) with
    | [] => [(x, none)]
    | ms => ms.map fun y => (x, some y)

variable {on : α → β → Bool} {xs : List α} {ys : List β}

/-- A condition on the left side alone may be asked first. -/
theorem filter_flatMap_of_fst {f : α → List (α × γ)} (hf : ∀ x, ∀ r ∈ f x, r.1 = x)
    (p : α → Bool) (xs : List α) :
    (xs.flatMap f).filter (fun r => p r.1) = (xs.filter p).flatMap f := by
  induction xs with
  | nil => rfl
  | cons x xs ih =>
    rw [List.flatMap_cons, List.filter_append, ih]
    cases hp : p x with
    | true =>
      have hall : (f x).filter (fun r => p r.1) = f x := by
        rw [List.filter_eq_self]
        intro r hr
        rw [hf x r hr, hp]
      rw [hall, List.filter_cons_of_pos hp, List.flatMap_cons]
    | false =>
      have hnone : (f x).filter (fun r => p r.1) = [] := by
        rw [List.filter_eq_nil_iff]
        intro r hr
        rw [hf x r hr, hp]
        exact Bool.false_ne_true
      rw [hnone, List.nil_append, List.filter_cons_of_neg (by simp [hp])]

theorem filter_inner (p : α → Bool) :
    (inner on xs ys).filter (fun r => p r.1) = inner on (xs.filter p) ys := by
  refine filter_flatMap_of_fst ?_ p xs
  intro x r hr
  obtain ⟨y, -, rfl⟩ := List.mem_map.mp hr
  rfl

theorem filter_left (p : α → Bool) :
    (left on xs ys).filter (fun r => p r.1) = left on (xs.filter p) ys := by
  refine filter_flatMap_of_fst ?_ p xs
  intro x r hr
  split at hr
  · rw [List.mem_singleton.mp hr]
  · obtain ⟨y, -, rfl⟩ := List.mem_map.mp hr
    rfl

theorem left_map {δ : Type} (f : δ → α) (zs : List δ) :
    left on (zs.map f) ys = (left (fun z => on (f z)) zs ys).map fun r => (f r.1, r.2) := by
  rw [left, left, List.flatMap_map, List.map_flatMap]
  apply List.flatMap_congr
  intro z _
  split
  · rfl
  · rw [List.map_map]
    rfl

/-- Of lists of which all but one are empty that one is left. -/
theorem flatMap_eq_of_unique {f : α → List γ} {x : α} (hnodup : xs.Nodup) (hx : x ∈ xs)
    (hrest : ∀ y ∈ xs, y ≠ x → f y = []) : xs.flatMap f = f x := by
  obtain ⟨before, after, rfl⟩ := List.append_of_mem hx
  have hempty : ∀ zs : List α, (∀ z ∈ zs, f z = []) → zs.flatMap f = [] := by
    intro zs hzs
    rw [List.flatMap_eq_nil_iff]
    exact hzs
  have hsplit := List.nodup_append.mp hnodup
  have hbefore : before.flatMap f = [] := by
    apply hempty
    intro z hz
    exact hrest z (by simp [hz]) (hsplit.2.2 z hz x List.mem_cons_self)
  have hafter : after.flatMap f = [] := by
    apply hempty
    intro z hz
    refine hrest z (by simp [hz]) ?_
    intro heq
    exact (List.nodup_cons.mp hsplit.2.1).1 (heq ▸ hz)
  rw [List.flatMap_append, List.flatMap_cons, hbefore, hafter, List.nil_append, List.append_nil]

/-- A row of the left side comes as often as it meets a row of the other, but at least once. -/
theorem left_isSome (f : α → Bool → γ) :
    (left on xs ys).map (fun r => f r.1 r.2.isSome) =
      xs.flatMap fun x => List.replicate (max 1 (ys.countP (on x))) (f x (decide (0 < ys.countP (on x)))) := by
  rw [left, List.map_flatMap]
  apply List.flatMap_congr
  intro x _
  rw [List.countP_eq_length_filter]
  cases hms : ys.filter (on x) with
  | nil => rfl
  | cons m ms =>
    have hpos : 0 < (m :: ms).length := by simp
    have hmax : max 1 (m :: ms).length = (m :: ms).length := by
      rw [List.length_cons]
      omega
    rw [hmax, decide_eq_true hpos, List.map_map, ← List.map_const']
    rfl

section once

variable {n : α → Nat} {g h : α → γ}

/-- Rows that are repeated are as many as before only if none is. -/
theorem flatMap_replicate_eq_map_iff (hpos : ∀ x ∈ xs, 1 ≤ n x) :
    (xs.flatMap fun x => List.replicate (n x) (g x)) = xs.map h ↔
      ∀ x ∈ xs, n x = 1 ∧ g x = h x := by
  have hlength : ∀ zs : List α, (∀ x ∈ zs, 1 ≤ n x) →
      zs.length ≤ (zs.flatMap fun x => List.replicate (n x) (g x)).length := by
    intro zs hzs
    induction zs with
    | nil => simp
    | cons z zs ih =>
      have hz := hzs z List.mem_cons_self
      have hrest := ih fun x hx => hzs x (List.mem_cons_of_mem z hx)
      rw [List.flatMap_cons, List.length_append, List.length_replicate, List.length_cons]
      omega
  induction xs with
  | nil => simp
  | cons x xs ih =>
    have hx := hpos x List.mem_cons_self
    have htail : ∀ y ∈ xs, 1 ≤ n y := fun y hy => hpos y (List.mem_cons_of_mem x hy)
    rw [List.forall_mem_cons, List.flatMap_cons, List.map_cons]
    constructor
    · intro heq
      have hone : n x = 1 := by
        have hlen := congrArg List.length heq
        have hrest := hlength xs htail
        rw [List.length_append, List.length_replicate, List.length_cons, List.length_map] at hlen
        omega
      rw [hone, List.replicate_one, List.singleton_append, List.cons_eq_cons] at heq
      exact ⟨⟨hone, heq.1⟩, (ih htail).mp heq.2⟩
    · intro hparts
      obtain ⟨⟨hone, hhead⟩, hrest⟩ := hparts
      rw [hone, List.replicate_one, List.singleton_append, hhead, (ih htail).mpr hrest]

end once

end DataBridge.Joins
