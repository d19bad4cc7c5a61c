import Mathlib.Algebra.GroupWithZero.Nat
import Mathlib.Data.List.Nodup
import Mathlib.Tactic.Common

namespace DataBridge

/-- A Python dict: its entries in insertion order, every key once. -/
@[ext] structure Dict (κ ν : Type) where
  entries : List (κ × ν)
  nodup : (entries.map Prod.fst).Nodup
  deriving DecidableEq

namespace Dict

variable {κ ν : Type}

def empty : Dict κ ν := ⟨[], List.nodup_nil⟩

def keys (d : Dict κ ν) : List κ := d.entries.map Prod.fst

@[simp] theorem keys_empty : (empty : Dict κ ν).keys = [] := rfl

private theorem nodup_append_key {es : List (κ × ν)} {k : κ} (v : ν)
    (hn : (es.map Prod.fst).Nodup) (hk : k ∉ es.map Prod.fst) :
    ((es ++ [(k, v)]).map Prod.fst).Nodup := by
  rw [List.map_append]
  exact hn.append (List.nodup_singleton k) (by simpa [List.disjoint_singleton] using hk)

variable [DecidableEq κ]

private theorem map_replace_keys (es : List (κ × ν)) (k : κ) (v : ν) :
    (es.map fun e => if e.1 = k then (k, v) else e).map Prod.fst = es.map Prod.fst := by
  rw [List.map_map]
  apply List.map_congr_left
  intro e _
  by_cases h : e.1 = k <;> simp [h]

def get? (d : Dict κ ν) (k : κ) : Option ν := d.entries.lookup k

/-- `d[k] = v`: a present key keeps its place, a new one comes last. -/
def set (d : Dict κ ν) (k : κ) (v : ν) : Dict κ ν :=
  if h : k ∈ d.entries.map Prod.fst then
    ⟨d.entries.map fun e => if e.1 = k then (k, v) else e, by
      rw [map_replace_keys]; exact d.nodup⟩
  else ⟨d.entries ++ [(k, v)], nodup_append_key v d.nodup h⟩

/-- `{k: v for (k, v) in es}`: a repeated key keeps its first place and its last value. -/
def ofList (es : List (κ × ν)) : Dict κ ν := es.foldl (fun d e => d.set e.1 e.2) empty

/-- The entries of a result row whose select list is `ks`. -/
def project (d : Dict κ ν) (ks : List κ) : Dict κ ν :=
  ofList (ks.filterMap fun k => (d.get? k).map fun v => (k, v))

@[simp] theorem get?_empty (k : κ) : (empty : Dict κ ν).get? k = none := rfl

private theorem lookup_cons_ite (es : List (κ × ν)) (k k' : κ) (v : ν) :
    ((k, v) :: es).lookup k' = if k' = k then some v else es.lookup k' := by
  rw [List.lookup_cons]
  by_cases h : k' = k
  · simp [h]
  · rw [beq_eq_false_iff_ne.mpr h, if_neg h]

private theorem lookup_replace (es : List (κ × ν)) (k k' : κ) (v : ν) :
    (es.map fun e => if e.1 = k then (k, v) else e).lookup k' =
      if k' = k ∧ k ∈ es.map Prod.fst then some v else es.lookup k' := by
  induction es with
  | nil => simp
  | cons e es ih =>
    obtain ⟨a, b⟩ := e
    by_cases ha : a = k
    · subst ha
      simp only [List.map_cons, if_true, lookup_cons_ite, ih]
      by_cases hk : k' = a <;> simp [hk]
    · simp only [List.map_cons, ha, if_false, lookup_cons_ite, ih]
      by_cases hk : k' = k
      · subst hk
        have hne : k' ≠ a := Ne.symm ha
        simp only [if_neg hne]
        exact if_congr (by simp [hne]) rfl rfl
      · simp [hk]

private theorem lookup_snoc (es : List (κ × ν)) (k k' : κ) (v : ν) (h : k ∉ es.map Prod.fst) :
    (es ++ [(k, v)]).lookup k' = if k' = k then some v else es.lookup k' := by
  rw [List.lookup_append]
  by_cases hk : k' = k
  · subst hk
    have hn : es.lookup k' = none := by
      rw [List.lookup_eq_none_iff]
      intro p hp
      have hne : k' ≠ p.1 := fun he => h (he ▸ List.mem_map_of_mem hp)
      simpa using hne
    simp [hn]
  · simp [lookup_cons_ite, hk]

@[simp] theorem get?_set (d : Dict κ ν) (k k' : κ) (v : ν) :
    (d.set k v).get? k' = if k' = k then some v else d.get? k' := by
  unfold set get?
  split
  · rename_i h
    rw [lookup_replace]
    by_cases hk : k' = k <;> simp [hk, h]
  · rename_i h
    exact lookup_snoc d.entries k k' v h

theorem keys_set (d : Dict κ ν) (k : κ) (v : ν) :
    (d.set k v).keys = if k ∈ d.keys then d.keys else d.keys ++ [k] := by
  unfold set keys
  split
  · exact map_replace_keys d.entries k v
  · simp

theorem mem_keys_set (d : Dict κ ν) (k k' : κ) (v : ν) :
    k' ∈ (d.set k v).keys ↔ k' = k ∨ k' ∈ d.keys := by
  rw [keys_set]
  split
  · rename_i h
    constructor
    · exact Or.inr
    · intro hcases
      rcases hcases with rfl | hk
      · exact h
      · exact hk
  · simp [or_comm]

theorem entries_set_of_notMem (d : Dict κ ν) (k : κ) (v : ν) (h : k ∉ d.keys) :
    (d.set k v).entries = d.entries ++ [(k, v)] := by
  have hk : k ∉ d.entries.map Prod.fst := h
  simp [set, hk]

theorem get?_isSome (d : Dict κ ν) (k : κ) : (d.get? k).isSome ↔ k ∈ d.keys := by
  unfold get? keys
  rw [List.lookup_isSome_iff]
  constructor
  · intro hparts
    obtain ⟨p, hp, he⟩ := hparts
    have hk : k = p.1 := by simpa using he
    exact hk ▸ List.mem_map_of_mem hp
  · intro h
    obtain ⟨p, hp, he⟩ := List.mem_map.mp h
    exact ⟨p, hp, by simp [he]⟩

theorem mem_keys_of_get? {d : Dict κ ν} {k : κ} {v : ν} (h : d.get? k = some v) : k ∈ d.keys := by
  rw [← get?_isSome, h]
  rfl

theorem mem_keys_iff_exists (d : Dict κ ν) (k : κ) : k ∈ d.keys ↔ ∃ v, d.get? k = some v := by
  rw [← get?_isSome, Option.isSome_iff_exists]

theorem get?_eq_none (d : Dict κ ν) (k : κ) : d.get? k = none ↔ k ∉ d.keys := by
  rw [← get?_isSome]
  cases d.get? k <;> simp

theorem get?_eq_some_iff (d : Dict κ ν) (k : κ) (v : ν) :
    d.get? k = some v ↔ (k, v) ∈ d.entries := by
  obtain ⟨es, hn⟩ := d
  simp only [get?]
  induction es with
  | nil => simp
  | cons e es ih =>
    obtain ⟨a, b⟩ := e
    simp only [List.map_cons, List.nodup_cons] at hn
    rw [lookup_cons_ite, List.mem_cons, Prod.mk.injEq]
    by_cases hk : k = a
    · subst hk
      have hnot : (k, v) ∉ es := fun h => hn.1 (List.mem_map.mpr ⟨(k, v), h, rfl⟩)
      simp [hnot, eq_comm]
    · simp [hk, ih hn.2]

section foldSet

variable {γ : Type} (key : γ → κ) (val : γ → ν)

/-- Assigning one key after the other: the last value given to a key is the one it has. -/
theorem get?_foldl_set (xs : List γ) (d : Dict κ ν) (k : κ) :
    (xs.foldl (fun d x => d.set (key x) (val x)) d).get? k =
      ((xs.reverse.find? fun x => key x = k).map val).or (d.get? k) := by
  induction xs generalizing d with
  | nil => simp
  | cons x xs ih =>
    rw [List.foldl_cons, ih, get?_set, List.reverse_cons, List.find?_append]
    cases hf : xs.reverse.find? fun x => key x = k with
    | some y => simp
    | none =>
      by_cases hk : k = key x
      · simp [hk]
      · have hk' : key x ≠ k := fun h => hk h.symm
        simp [hk, hk']

theorem mem_keys_foldl_set (xs : List γ) (d : Dict κ ν) (k : κ) :
    k ∈ (xs.foldl (fun d x => d.set (key x) (val x)) d).keys ↔ k ∈ d.keys ∨ k ∈ xs.map key := by
  induction xs generalizing d with
  | nil => simp
  | cons x xs ih =>
    rw [List.foldl_cons, ih, mem_keys_set, List.map_cons, List.mem_cons]
    tauto

theorem entries_foldl_set (xs : List γ) (d : Dict κ ν)
    (h : (d.keys ++ xs.map key).Nodup) :
    (xs.foldl (fun d x => d.set (key x) (val x)) d).entries =
      d.entries ++ xs.map fun x => (key x, val x) := by
  induction xs generalizing d with
  | nil => simp
  | cons x xs ih =>
    have hx : key x ∉ d.keys := by
      intro hm
      exact List.disjoint_of_nodup_append h hm (by simp)
    have he := entries_set_of_notMem d (key x) (val x) hx
    have hkeys : (d.set (key x) (val x)).keys = d.keys ++ [key x] := by simp [keys_set, hx]
    rw [List.foldl_cons, ih, he]
    · simp
    · rw [hkeys]
      simpa using h

end foldSet

theorem entries_ofList (es : List (κ × ν)) (h : (es.map Prod.fst).Nodup) :
    (ofList es).entries = es := by
  have he := entries_foldl_set Prod.fst Prod.snd es (empty : Dict κ ν) (by simpa using h)
  simpa [ofList, empty] using he

theorem mem_keys_ofList (es : List (κ × ν)) (k : κ) :
    k ∈ (ofList es).keys ↔ k ∈ es.map Prod.fst := by
  have h := mem_keys_foldl_set Prod.fst Prod.snd es (empty : Dict κ ν) k
  simpa [ofList] using h

theorem get?_ofList (es : List (κ × ν)) (h : (es.map Prod.fst).Nodup) (k : κ) (v : ν) :
    (ofList es).get? k = some v ↔ (k, v) ∈ es := by
  rw [get?_eq_some_iff, entries_ofList es h]

/-- Every value replaced by `f` of its key and itself. -/
def mapValues (f : κ → ν → ν) (d : Dict κ ν) : Dict κ ν :=
  ⟨d.entries.map fun e => (e.1, f e.1 e.2), by
    rw [List.map_map]
    exact d.nodup⟩

private theorem lookup_mapValues (f : κ → ν → ν) (es : List (κ × ν)) (k : κ) :
    (es.map fun e => (e.1, f e.1 e.2)).lookup k = (es.lookup k).map (f k) := by
  induction es with
  | nil => rfl
  | cons e es ih =>
    obtain ⟨a, b⟩ := e
    simp only [List.map_cons, lookup_cons_ite, ih]
    by_cases hk : k = a <;> simp [hk]

theorem get?_mapValues (f : κ → ν → ν) (d : Dict κ ν) (k : κ) :
    (d.mapValues f).get? k = (d.get? k).map (f k) := lookup_mapValues f d.entries k

/-- The sum of `f` over the values. -/
def total (f : ν → Nat) (d : Dict κ ν) : Nat := (d.entries.map fun e => f e.2).sum

private theorem replace_absent (es : List (κ × ν)) (k : κ) (v : ν) (h : k ∉ es.map Prod.fst) :
    (es.map fun e => if e.1 = k then (k, v) else e) = es := by
  conv_rhs => rw [← List.map_id es]
  apply List.map_congr_left
  intro e he
  have hne : e.1 ≠ k := fun heq => h (heq ▸ List.mem_map_of_mem he)
  exact if_neg hne

private theorem sum_replace (f : ν → Nat) (es : List (κ × ν)) (k : κ) (v v' : ν)
    (hn : (es.map Prod.fst).Nodup) (h : (k, v) ∈ es) :
    ((es.map fun e => if e.1 = k then (k, v') else e).map fun e => f e.2).sum + f v =
      (es.map fun e => f e.2).sum + f v' := by
  induction es with
  | nil => simp at h
  | cons e es ih =>
    simp only [List.map_cons, List.nodup_cons] at hn
    rcases List.mem_cons.mp h with heq | hmem
    · subst heq
      rw [List.map_cons, replace_absent es k v' hn.1]
      simp only [if_true, List.map_cons, List.sum_cons]
      omega
    · have hne : e.1 ≠ k := fun heq => hn.1 (heq ▸ List.mem_map.mpr ⟨(k, v), hmem, rfl⟩)
      have hrest := ih hn.2 hmem
      rw [List.map_cons, if_neg hne]
      simp only [List.map_cons, List.sum_cons]
      omega

theorem total_set_present (f : ν → Nat) (d : Dict κ ν) (k : κ) (v v' : ν)
    (h : d.get? k = some v) : (d.set k v').total f + f v = d.total f + f v' := by
  have hmem := (get?_eq_some_iff d k v).mp h
  have hkey : k ∈ d.entries.map Prod.fst := List.mem_map.mpr ⟨(k, v), hmem, rfl⟩
  have hset : (d.set k v').entries = d.entries.map fun e => if e.1 = k then (k, v') else e := by
    simp [set, hkey]
  rw [total, total, hset]
  exact sum_replace f d.entries k v v' d.nodup hmem

theorem total_set_absent (f : ν → Nat) (d : Dict κ ν) (k : κ) (v : ν) (h : k ∉ d.keys) :
    (d.set k v).total f = d.total f + f v := by
  rw [total, total, entries_set_of_notMem d k v h, List.map_append, List.sum_append]
  simp

/-- Setting a key to the value it has changes nothing. -/
theorem set_self (d : Dict κ ν) {k : κ} {v : ν} (h : d.get? k = some v) : d.set k v = d := by
  have hentry : (k, v) ∈ d.entries := (d.get?_eq_some_iff k v).mp h
  have hmem : k ∈ d.entries.map Prod.fst := List.mem_map_of_mem hentry
  apply Dict.ext
  rw [set, dif_pos hmem]
  conv_rhs => rw [← List.map_id d.entries]
  apply List.map_congr_left
  intro e he
  split
  · rename_i hk
    exact List.inj_on_of_nodup_map d.nodup hentry he hk.symm
  · rfl

/-- Projecting on a select list keeps the value of every selected column. -/
theorem get?_project (d : Dict κ ν) (ks : List κ) (k : κ) (hk : k ∈ ks) :
    (d.project ks).get? k = d.get? k := by
  have hget := get?_foldl_set Prod.fst Prod.snd
    (ks.filterMap fun k => (d.get? k).map fun v => (k, v)) (empty : Dict κ ν) k
  have hmem : ∀ p ∈ ks.filterMap (fun k => (d.get? k).map fun v => (k, v)),
      d.get? p.1 = some p.2 := by
    intro p hp
    obtain ⟨k', -, h⟩ := List.mem_filterMap.mp hp
    cases hv : d.get? k' with
    | none => simp [hv] at h
    | some v =>
      have hp' : (k', v) = p := by simpa [hv] using h
      subst hp'
      exact hv
  rw [project, ofList, hget, get?_empty, Option.or_none]
  cases hf : List.find? (fun x => decide (x.1 = k))
      (ks.filterMap fun k => (d.get? k).map fun v => (k, v)).reverse with
  | some p =>
    have hp := hmem p (List.mem_reverse.mp (List.mem_of_find?_eq_some hf))
    have hkey : p.1 = k := by simpa using List.find?_some hf
    rw [← hkey, hp]
    rfl
  | none =>
    rw [List.find?_eq_none] at hf
    cases hv : d.get? k with
    | none => rfl
    | some v =>
      have hin : (k, v) ∈ ks.filterMap fun k => (d.get? k).map fun v => (k, v) :=
        List.mem_filterMap.mpr ⟨k, hk, by simp [hv]⟩
      have hne := hf (k, v) (List.mem_reverse.mpr hin)
      simp at hne

end Dict

end DataBridge
