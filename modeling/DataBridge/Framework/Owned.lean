import DataBridge.Framework.Dict

namespace DataBridge

theorem Dict.mapValues_eq_self {κ ν : Type} [DecidableEq κ] {f : κ → ν → ν} {d : Dict κ ν}
    (h : ∀ k v, d.get? k = some v → f k v = v) : d.mapValues f = d := by
  apply Dict.ext
  rw [mapValues]
  conv_rhs => rw [← List.map_id d.entries]
  apply List.map_congr_left
  intro e he
  have hsame := h e.1 e.2 ((d.get?_eq_some_iff e.1 e.2).mpr he)
  simp [hsame]

namespace Owned

/-! ## Lists whose elements have owners -/

variable {ω κ α ν : Type} [DecidableEq ω]

/-- The elements of one owner. -/
def of (o : ω) (xs : List (ω × α)) : List α := (xs.filter fun e => e.1 = o).map Prod.snd

/-- The place that index `i` of the whole list has among the elements of its owner. -/
def place (o : ω) (xs : List (ω × α)) (i : Nat) : Nat := (of o (xs.take i)).length

@[simp] theorem of_nil (o : ω) : of o ([] : List (ω × α)) = [] := rfl

theorem of_append (o : ω) (xs ys : List (ω × α)) : of o (xs ++ ys) = of o xs ++ of o ys := by
  simp [of]

theorem of_cons_self (o : ω) (a : α) (xs : List (ω × α)) : of o ((o, a) :: xs) = a :: of o xs := by
  simp [of]

theorem of_cons_ne {o o' : ω} (h : o' ≠ o) (a : α) (xs : List (ω × α)) :
    of o ((o', a) :: xs) = of o xs := by
  simp [of, h]

theorem of_append_self (o : ω) (a : α) (xs : List (ω × α)) :
    of o (xs ++ [(o, a)]) = of o xs ++ [a] := by
  rw [of_append, of_cons_self, of_nil]

theorem of_append_ne {o o' : ω} (h : o' ≠ o) (a : α) (xs : List (ω × α)) :
    of o (xs ++ [(o', a)]) = of o xs := by
  rw [of_append, of_cons_ne h, of_nil, List.append_nil]

theorem mem_of {o : ω} {xs : List (ω × α)} {a : α} : a ∈ of o xs ↔ (o, a) ∈ xs := by
  simp [of]

/-- An element is found at its place among those of its owner. -/
theorem getElem?_of {o : ω} {xs : List (ω × α)} {i : Nat} {a : α} (h : xs[i]? = some (o, a)) :
    (of o xs)[place o xs i]? = some a := by
  obtain ⟨hi, hx⟩ := List.getElem?_eq_some_iff.mp h
  have hsplit : xs = xs.take i ++ (o, a) :: xs.drop (i + 1) := by
    rw [← hx, List.getElem_cons_drop, List.take_append_drop]
  have hof : of o xs = of o (xs.take i) ++ a :: of o (xs.drop (i + 1)) := by
    conv_lhs => rw [hsplit]
    rw [of_append, of_cons_self]
  rw [hof, place, List.getElem?_append_right (Nat.le_refl _), Nat.sub_self, List.getElem?_cons_zero]

theorem set_eq_append {xs : List α} {i : Nat} (hi : i < xs.length) (y : α) :
    xs.set i y = xs.take i ++ y :: xs.drop (i + 1) := by
  rw [List.set_eq_take_append_cons_drop, if_pos hi]

/-- A change at an index is one at its place among those of its owner. -/
theorem of_set_self {o : ω} {xs : List (ω × α)} {i : Nat} {a : α} (h : xs[i]? = some (o, a)) (b : α) :
    of o (xs.set i (o, b)) = (of o xs).set (place o xs i) b := by
  obtain ⟨hi, hx⟩ := List.getElem?_eq_some_iff.mp h
  have hsplit : xs = xs.take i ++ (o, a) :: xs.drop (i + 1) := by
    rw [← hx, List.getElem_cons_drop, List.take_append_drop]
  have hof : of o xs = of o (xs.take i) ++ a :: of o (xs.drop (i + 1)) := by
    conv_lhs => rw [hsplit]
    rw [of_append, of_cons_self]
  rw [set_eq_append hi, of_append, of_cons_self, hof, place,
    List.set_append_right _ _ (Nat.le_refl _), Nat.sub_self, List.set_cons_zero]

/-- A change at an index is none for another owner. -/
theorem of_set_ne {o o' : ω} {xs : List (ω × α)} {i : Nat} {a : α} (h : xs[i]? = some (o', a))
    (hne : o' ≠ o) (b : α) : of o (xs.set i (o', b)) = of o xs := by
  obtain ⟨hi, hx⟩ := List.getElem?_eq_some_iff.mp h
  have hsplit : xs = xs.take i ++ (o', a) :: xs.drop (i + 1) := by
    rw [← hx, List.getElem_cons_drop, List.take_append_drop]
  have hof : of o xs = of o (xs.take i) ++ of o (xs.drop (i + 1)) := by
    conv_lhs => rw [hsplit]
    rw [of_append, of_cons_ne hne]
  rw [set_eq_append hi, of_append, of_cons_ne hne, hof]

/-! ## Dicts whose values have owners -/

private def entryOf (o : ω) (e : κ × ω × ν) : Option (κ × ν) :=
  if e.2.1 = o then some (e.1, e.2.2) else none

private theorem keys_filterMap_sublist (o : ω) (es : List (κ × ω × ν)) :
    ((es.filterMap (entryOf o)).map Prod.fst).Sublist (es.map Prod.fst) := by
  induction es with
  | nil => simp
  | cons e es ih =>
    by_cases h : e.2.1 = o
    · rw [List.filterMap_cons_some (b := (e.1, e.2.2)) (by simp [entryOf, h])]
      exact ih.cons_cons e.1
    · rw [List.filterMap_cons_none (by simp [entryOf, h])]
      exact ih.cons e.1

/-- The entries of one owner. -/
def dict (o : ω) (d : Dict κ (ω × ν)) : Dict κ ν :=
  ⟨d.entries.filterMap (entryOf o), d.nodup.sublist (keys_filterMap_sublist o d.entries)⟩

private theorem entries_dict (o : ω) (d : Dict κ (ω × ν)) :
    (dict o d).entries = d.entries.filterMap (entryOf o) := rfl

theorem dict_mapValues (o : ω) (f : κ → ν → ν) (d : Dict κ (ω × ν)) :
    dict o (d.mapValues fun k e => (e.1, f k e.2)) = (dict o d).mapValues f := by
  apply Dict.ext
  simp only [entries_dict, Dict.mapValues, List.filterMap_map, List.map_filterMap]
  congr 1
  funext e
  by_cases h : e.2.1 = o <;> simp [entryOf, h]

variable [DecidableEq κ]

theorem get?_dict (o : ω) (d : Dict κ (ω × ν)) (k : κ) (v : ν) :
    (dict o d).get? k = some v ↔ d.get? k = some (o, v) := by
  rw [Dict.get?_eq_some_iff, Dict.get?_eq_some_iff, dict, List.mem_filterMap]
  constructor
  · rintro ⟨⟨k', o', v'⟩, hmem, h⟩
    obtain ⟨ho, he⟩ := Option.ite_none_right_eq_some.mp h
    cases he
    exact ho ▸ hmem
  · intro hmem
    exact ⟨(k, o, v), hmem, by simp [entryOf]⟩

/-- A new entry is one of its owner. -/
theorem dict_set_new {o : ω} {d : Dict κ (ω × ν)} {k : κ} (hk : k ∉ d.keys) (v : ν) :
    dict o (d.set k (o, v)) = (dict o d).set k v := by
  have hnew : k ∉ (dict o d).keys := fun h => hk ((keys_filterMap_sublist o d.entries).subset h)
  apply Dict.ext
  rw [entries_dict, Dict.entries_set_of_notMem _ _ _ hk, Dict.entries_set_of_notMem _ _ _ hnew,
    List.filterMap_append, entries_dict]
  simp [entryOf]

theorem dict_set_ne {o o' : ω} {d : Dict κ (ω × ν)} {k : κ} (hk : k ∉ d.keys) (hne : o' ≠ o)
    (v : ν) : dict o (d.set k (o', v)) = dict o d := by
  apply Dict.ext
  rw [entries_dict, Dict.entries_set_of_notMem _ _ _ hk, List.filterMap_append, entries_dict]
  simp [entryOf, hne]

end Owned

end DataBridge
