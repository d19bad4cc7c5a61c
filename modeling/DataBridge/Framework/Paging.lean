import Mathlib.Data.List.FinRange
import Mathlib.Data.List.OfFn
import Mathlib.Data.Fintype.EquivFin
import Mathlib.Tactic.Common

namespace DataBridge.Paging

variable {n : Nat} {α : Type}

/-- `limit` positions of an enumeration, from `offset` on. -/
def page (order : Fin n → α) (offset limit : Nat) : List α :=
  (((List.finRange n).drop offset).take limit).map order

/-- What stands at position `p` when page `k` is read from the enumeration `orders k`. -/
def shown (b : Nat) (orders : Nat → Fin n → α) (p : Fin n) : α := orders (p / b) p

theorem page_length (order : Fin n → α) (offset limit : Nat) :
    (page order offset limit).length = min limit (n - offset) := by
  simp [page]

/-- Page `k` continues what the pages before it have shown. -/
theorem take_shown_append_page (b : Nat) (orders : Nat → Fin n → α) (k : Nat) :
    (List.ofFn (shown b orders)).take (min (k * b) n) ++ page (orders k) (min (k * b) n) b =
      (List.ofFn (shown b orders)).take (min ((k + 1) * b) n) := by
  have hstep : (k + 1) * b = k * b + b := Nat.succ_mul k b
  apply List.ext_getElem
  · simp only [List.length_append, List.length_take, List.length_ofFn, page_length]
    omega
  · intro i hi hi'
    have hin : i < n ∧ i < (k + 1) * b := by
      simp only [List.length_take, List.length_ofFn] at hi'
      omega
    rw [List.getElem_append]
    split
    · simp
    · rename_i hge
      have hpast : k * b ≤ i := by
        simp only [List.length_take, List.length_ofFn] at hge
        omega
      have hmin : min (k * b) n = k * b := by omega
      have hb : 0 < b := by omega
      have hdiv : i / b = k := by
        apply Nat.div_eq_of_lt_le
        · exact hpast
        · exact hin.2
      simp only [page, List.getElem_map, List.getElem_take, List.getElem_drop,
        List.getElem_finRange, List.getElem_ofFn, shown, List.length_take, List.length_ofFn, hdiv]
      congr 1
      simp only [Fin.ext_iff, Fin.val_cast, hmin]
      omega

/-- A list over all positions holds each value once just when it repeats none. -/
theorem count_ofFn_eq_one_iff (f : Fin n → Fin n) :
    (∀ i, (List.ofFn f).count i = 1) ↔ Function.Injective f := by
  constructor
  · intro h
    apply List.nodup_ofFn.mp
    rw [List.nodup_iff_count_le_one]
    intro i
    exact (h i).le
  · intro hf i
    have hsurj : Function.Surjective f := Finite.surjective_of_injective hf
    obtain ⟨p, hp⟩ := hsurj i
    apply List.count_eq_one_of_mem (List.nodup_ofFn.mpr hf)
    exact List.mem_ofFn.mpr ⟨p, hp⟩

/-- One enumeration has on every page `k` the rows that page `k` of `orders k` has. -/
def HasCommonOrder (b : Nat) (orders : Nat → Equiv.Perm (Fin n)) : Prop :=
  ∃ common : Equiv.Perm (Fin n), ∀ k : Nat, ∀ p : Fin n, p / b = k →
    ∃ q : Fin n, q / b = k ∧ orders k p = common q

/-- The pages repeat nothing just when the enumerations have a common order. -/
theorem shown_injective_iff (b : Nat) (orders : Nat → Equiv.Perm (Fin n)) :
    Function.Injective (shown b fun k => orders k) ↔ HasCommonOrder b orders := by
  constructor
  · intro hinj
    refine ⟨Equiv.ofBijective _ (Finite.injective_iff_bijective.mp hinj), ?_⟩
    intro k p hp
    refine ⟨p, hp, ?_⟩
    rw [Equiv.ofBijective_apply, shown, hp]
  · intro h p p' heq
    obtain ⟨common, hcommon⟩ := h
    obtain ⟨q, hq, hpq⟩ := hcommon _ p rfl
    obtain ⟨q', hq', hpq'⟩ := hcommon _ p' rfl
    have hqq : q = q' := by
      apply common.injective
      rw [← hpq, ← hpq']
      exact heq
    -- one row of the common enumeration lies on one page, so both positions read the same query
    have hpage : (p : Nat) / b = p' / b := by rw [← hq, ← hq', hqq]
    apply (orders (p / b)).injective
    change shown b (fun k => orders k) p = _
    rw [heq, shown, hpage]

end DataBridge.Paging
