import DataBridge.Framework.Dict
import Mathlib.Data.Finset.Basic
import Mathlib.Data.Finset.Dedup

namespace DataBridge

namespace Dict

variable {κ ν : Type} [DecidableEq κ]

/-- `del d[k]`. -/
def erase (d : Dict κ ν) (k : κ) : Dict κ ν :=
  ⟨d.entries.filter fun e => e.1 ≠ k, d.nodup.sublist (List.filter_sublist.map _)⟩

@[simp] theorem get?_erase (d : Dict κ ν) (k k' : κ) :
    (d.erase k).get? k' = if k' = k then none else d.get? k' := by
  apply Option.ext
  intro v
  rw [get?_eq_some_iff]
  by_cases hk : k' = k
  · simp [erase, hk]
  · simp [erase, hk, get?_eq_some_iff]

/-- A dict without keys is empty. -/
theorem eq_empty_of_get? {d : Dict κ ν} (h : ∀ k, d.get? k = none) : d = empty := by
  have hkeys : ∀ k, k ∉ d.keys := fun k => (get?_eq_none d k).mp (h k)
  apply Dict.ext
  exact List.map_eq_nil_iff.mp (List.eq_nil_iff_forall_not_mem.mpr hkeys)

end Dict

/-- A Python `defaultdict(set)`: reading a missing key with `d[k]` adds it, with the empty set. -/
abbrev SetDict (κ ν : Type) := Dict κ (Finset ν)

namespace SetDict

variable {κ ν : Type} [DecidableEq κ]

/-- `d.get(k, set())`, which adds no key. -/
def members (d : SetDict κ ν) (k : κ) : Finset ν := (d.get? k).getD ∅

/-- No key holds the empty set. -/
def Pruned (d : SetDict κ ν) : Prop := ∀ k vs, d.get? k = some vs → vs.Nonempty

@[simp] theorem members_empty (k : κ) : members (Dict.empty : SetDict κ ν) k = ∅ := rfl

theorem members_set (d : SetDict κ ν) (k k' : κ) (vs : Finset ν) :
    members (d.set k vs) k' = if k' = k then vs else members d k' := by
  rw [members, Dict.get?_set]
  by_cases hk : k' = k
  · simp [hk]
  · simp [hk, members]

theorem Pruned.empty : Pruned (Dict.empty : SetDict κ ν) := by
  intro k vs h
  cases h

/-- Setting one key keeps the others pruned. -/
theorem Pruned.set {d : SetDict κ ν} (h : Pruned d) {k : κ} {vs : Finset ν} (hvs : vs.Nonempty) :
    Pruned (d.set k vs) := by
  intro k' vs' hget
  rw [Dict.get?_set] at hget
  split at hget
  · cases hget
    exact hvs
  · exact h k' vs' hget

/-- A pruned dict without members is empty. -/
theorem Pruned.eq_empty {d : SetDict κ ν} (h : Pruned d) (hnone : ∀ k, members d k = ∅) :
    d = Dict.empty := by
  apply Dict.eq_empty_of_get?
  intro k
  cases hget : d.get? k with
  | none => rfl
  | some vs =>
    have hvs : vs = ∅ := by
      have hmembers := hnone k
      rw [members, hget] at hmembers
      exact hmembers
    exact absurd (h k vs hget) (by simp [hvs])

variable [DecidableEq ν]

/-- `d[k].add(v)`. -/
def add (d : SetDict κ ν) (k : κ) (v : ν) : SetDict κ ν := d.set k (insert v (members d k))

/-- `d[k].discard(v)`. -/
def discard (d : SetDict κ ν) (k : κ) (v : ν) : SetDict κ ν := d.set k ((members d k).erase v)

/-- `for v in vs: d[k].discard(v)`. -/
def discardAll (d : SetDict κ ν) (k : κ) (vs : List ν) : SetDict κ ν :=
  vs.foldl (fun d v => discard d k v) d

/-- `if not d[k]: del d[k]`. -/
def prune (d : SetDict κ ν) (k : κ) : SetDict κ ν := if members d k = ∅ then d.erase k else d

@[simp] theorem members_add (d : SetDict κ ν) (k k' : κ) (v : ν) :
    members (add d k v) k' = if k' = k then insert v (members d k) else members d k' :=
  members_set d k k' _

@[simp] theorem members_discard (d : SetDict κ ν) (k k' : κ) (v : ν) :
    members (discard d k v) k' = if k' = k then (members d k).erase v else members d k' :=
  members_set d k k' _

/-- Deleting an empty key takes no member away. -/
@[simp] theorem members_prune (d : SetDict κ ν) (k k' : κ) :
    members (prune d k) k' = members d k' := by
  unfold prune
  split
  · rename_i hempty
    by_cases hk : k' = k
    · subst hk
      rw [hempty, members, Dict.get?_erase, if_pos rfl]
      rfl
    · simp [members, hk]
  · rfl

theorem mem_discardAll (d : SetDict κ ν) (k k' : κ) (vs : List ν) (v : ν) :
    v ∈ members (discardAll d k vs) k' ↔ v ∈ members d k' ∧ ¬(k' = k ∧ v ∈ vs) := by
  induction vs generalizing d with
  | nil => simp [discardAll]
  | cons w vs ih =>
    have hstep : discardAll d k (w :: vs) = discardAll (discard d k w) k vs := rfl
    rw [hstep, ih, members_discard]
    by_cases hk : k' = k
    · simp [hk]
      tauto
    · simp [hk]

theorem Pruned.add {d : SetDict κ ν} (h : Pruned d) (k : κ) (v : ν) : Pruned (add d k v) :=
  h.set (Finset.insert_nonempty v _)

/-- A discard followed by the removal of an emptied key. -/
theorem Pruned.discard_prune {d : SetDict κ ν} (h : Pruned d) (k : κ) (v : ν) :
    Pruned (prune (discard d k v) k) := by
  have hothers : ∀ k' vs, k' ≠ k → (discard d k v).get? k' = some vs → vs.Nonempty := by
    intro k' vs hk hget
    rw [discard, Dict.get?_set, if_neg hk] at hget
    exact h k' vs hget
  intro k' vs hget
  unfold prune at hget
  split at hget
  · rw [Dict.get?_erase] at hget
    split at hget
    · cases hget
    · rename_i hk
      exact hothers k' vs hk hget
  · rename_i hmembers
    by_cases hk : k' = k
    · subst hk
      have hvs : members (discard d k' v) k' = vs := by rw [members, hget]; rfl
      rw [hvs] at hmembers
      exact Finset.nonempty_iff_ne_empty.mpr hmembers
    · exact hothers k' vs hk hget

/-- Discards create the key they are made under. -/
theorem get?_discardAll (d : SetDict κ ν) (k k' : κ) {vs : List ν} (hvs : vs ≠ []) :
    (discardAll d k vs).get? k' =
      if k' = k then some (members (discardAll d k vs) k) else d.get? k' := by
  induction vs generalizing d with
  | nil => exact absurd rfl hvs
  | cons v vs ih =>
    have hstep : discardAll d k (v :: vs) = discardAll (discard d k v) k vs := rfl
    rw [hstep]
    cases vs with
    | nil => by_cases hk : k' = k <;> simp [discardAll, discard, hk, members]
    | cons w ws =>
      rw [ih (discard d k v) (List.cons_ne_nil w ws)]
      by_cases hk : k' = k <;> simp [discard, hk]

/-- Discards alone leave no empty key just when they leave a member. -/
theorem pruned_discardAll_iff {d : SetDict κ ν} (h : Pruned d) (k : κ) {vs : List ν}
    (hvs : vs ≠ []) : Pruned (discardAll d k vs) ↔ ∃ v ∈ members d k, v ∉ vs := by
  have hmem := mem_discardAll d k k vs
  have hget := get?_discardAll d k
  constructor
  · intro hpruned
    obtain ⟨v, hv⟩ := hpruned k _ (by rw [hget k hvs, if_pos rfl])
    have hleft := (hmem v).mp hv
    exact ⟨v, hleft.1, fun hin => hleft.2 ⟨rfl, hin⟩⟩
  · intro hleft
    obtain ⟨v, hv, hnot⟩ := hleft
    intro k' vs' hk'
    rw [hget k' hvs] at hk'
    split at hk'
    · cases hk'
      exact ⟨v, (hmem v).mpr ⟨hv, fun hin => hnot hin.2⟩⟩
    · exact h k' vs' hk'

end SetDict

end DataBridge
