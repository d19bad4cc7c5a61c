import Mathlib.Data.List.Sort
import Mathlib.Tactic.Common

namespace DataBridge.TiedOrder

section prefixes

variable {α : Type} {p : α → Bool} {xs : List α}

/-- A list whose values in `p` all come first. -/
abbrev Leading (p : α → Bool) (xs : List α) : Prop := xs.Pairwise fun x y => p y = true → p x = true

theorem Leading.countP_eq_zero {x : α} (h : Leading p (x :: xs)) (hx : p x = false) :
    xs.countP p = 0 := by
  rw [List.countP_eq_zero]
  intro y hy hp
  have := (List.pairwise_cons.mp h).1 y hy hp
  rw [hx] at this
  cases this

theorem Leading.lt_countP_iff (h : Leading p xs) {i : Nat} (hi : i < xs.length) :
    i < xs.countP p ↔ p xs[i] = true := by
  induction xs generalizing i with
  | nil => cases hi
  | cons x xs ih =>
    have htail := (List.pairwise_cons.mp h).2
    cases hx : p x with
    | false =>
      have hzero := h.countP_eq_zero hx
      rw [List.countP_cons_of_neg (by simp [hx]), hzero]
      cases i with
      | zero => simp [hx]
      | succ i =>
        have hnone := List.countP_eq_zero.mp hzero _
          (List.getElem_mem (Nat.lt_of_succ_lt_succ hi))
        simpa using hnone
    | true =>
      rw [List.countP_cons_of_pos hx]
      cases i with
      | zero => simp [hx]
      | succ i => simpa using ih htail (Nat.lt_of_succ_lt_succ hi)

theorem Leading.filter_eq_take (h : Leading p xs) : xs.filter p = xs.take (xs.countP p) := by
  induction xs with
  | nil => rfl
  | cons x xs ih =>
    cases hx : p x with
    | false =>
      have hzero := h.countP_eq_zero hx
      rw [List.filter_cons_of_neg (by simp [hx]), List.countP_cons_of_neg (by simp [hx]), hzero,
        ih (List.pairwise_cons.mp h).2, hzero]
      rfl
    | true =>
      rw [List.filter_cons_of_pos hx, List.countP_cons_of_pos hx, List.take_succ_cons,
        ih (List.pairwise_cons.mp h).2]

end prefixes

variable {α β : Type} [LinearOrder β] {key : α → β} {rows : List α}

/-- An answer of `ORDER BY key` over the rows: any order of rows with equal keys will do. -/
structure Sorts (key : α → β) (rows answer : List α) : Prop where
  perm : answer.Perm rows
  sorted : answer.Pairwise fun x y => key x ≤ key y

theorem sorts_mergeSort : Sorts key rows (rows.mergeSort fun x y => decide (key x ≤ key y)) where
  perm := List.mergeSort_perm _ _
  sorted := by
    have h : (rows.mergeSort fun x y => decide (key x ≤ key y)).Pairwise
        fun x y => decide (key x ≤ key y) = true :=
      List.pairwise_mergeSort (by simpa using fun _ _ _ => le_trans)
        (by simpa using fun x y => le_total (key x) (key y)) rows
    simpa using h

namespace Sorts

variable {answer answer' : List α} (h : Sorts key rows answer)
include h

/-- Two answers differ only within the groups of equal keys. -/
theorem keys_eq (h' : Sorts key rows answer') : answer.map key = answer'.map key := by
  apply List.Perm.eq_of_pairwise fun (_ _ : β) _ _ (hle : _ ≤ _) hge => le_antisymm hle hge
  · exact List.pairwise_map.mpr h.sorted
  · exact List.pairwise_map.mpr h'.sorted
  · exact (h.perm.trans h'.perm.symm).map key

theorem leading_le (t : β) : Leading (fun x => decide (key x ≤ t)) answer := by
  refine h.sorted.imp ?_
  intro x y hxy hy
  simp only [decide_eq_true_eq] at hy ⊢
  exact hxy.trans hy

theorem leading_lt (t : β) : Leading (fun x => decide (key x < t)) answer := by
  refine h.sorted.imp ?_
  intro x y hxy hy
  simp only [decide_eq_true_eq] at hy ⊢
  exact hxy.trans_lt hy

end Sorts

/-- Some group of equal keys starts before a page boundary and ends behind it. -/
def CutsTie (key : α → β) (rows : List α) (limit : Nat) : Prop :=
  ∃ t k, rows.countP (fun x => decide (key x < t)) < k * limit ∧
    k * limit < rows.countP fun x => decide (key x ≤ t)

/-- Rows with pairwise different keys have no group to cut. -/
theorem not_cutsTie_of_nodup {limit : Nat} (hnodup : (rows.map key).Nodup) :
    ¬ CutsTie key rows limit := by
  rintro ⟨t, k, hbelow, hupto⟩
  have hsplit : rows.countP (fun x => decide (key x ≤ t)) ≤
      rows.countP (fun x => decide (key x < t)) + (rows.map key).count t := by
    rw [List.count, List.countP_map]
    clear hnodup hbelow hupto
    induction rows with
    | nil => simp
    | cons x rows ih =>
      simp only [List.countP_cons, Function.comp_apply, decide_eq_true_eq, beq_iff_eq]
      have hone : (if key x ≤ t then 1 else 0) ≤
          (if key x < t then 1 else 0) + if key x = t then 1 else 0 := by
        rcases lt_trichotomy (key x) t with hlt | heq | hgt
        · simp [hlt, hlt.le]
        · simp [heq]
        · simp [not_le.mpr hgt]
      omega
  have honce := List.nodup_iff_count_le_one.mp hnodup t
  omega

/-- Rows up to a boundary that cuts no group are those with the smaller keys. -/
theorem Sorts.take_eq_filter {answer : List α} (h : Sorts key rows answer) {b : Nat}
    (hpos : 0 < b) (hb : b ≤ answer.length)
    (huncut : ∀ t, rows.countP (fun x => decide (key x < t)) < b →
      rows.countP (fun x => decide (key x ≤ t)) ≤ b) :
    ∃ t, rows.countP (fun x => decide (key x ≤ t)) = b ∧
      answer.take b = answer.filter fun x => decide (key x ≤ t) := by
  have hlast : b - 1 < answer.length := by omega
  have hlt := (h.leading_lt (key answer[b - 1])).lt_countP_iff hlast
  have hle := (h.leading_le (key answer[b - 1])).lt_countP_iff hlast
  rw [h.perm.countP_eq] at hlt hle
  have hbelow : ¬ b - 1 < rows.countP fun x => decide (key x < key answer[b - 1]) := by
    rw [hlt]
    simp
  have hupto : b - 1 < rows.countP fun x => decide (key x ≤ key answer[b - 1]) := by
    rw [hle]
    simp
  have hmost := huncut (key answer[b - 1]) (by omega)
  have hcount : rows.countP (fun x => decide (key x ≤ key answer[b - 1])) = b := by omega
  refine ⟨key answer[b - 1], hcount, ?_⟩
  rw [(h.leading_le _).filter_eq_take, h.perm.countP_eq, hcount]

/-- Up to a boundary that cuts no group, all answers hold the same rows. -/
theorem Sorts.take_perm {answer answer' : List α} (h : Sorts key rows answer)
    (h' : Sorts key rows answer') {b : Nat}
    (huncut : ∀ t, rows.countP (fun x => decide (key x < t)) < b →
      rows.countP (fun x => decide (key x ≤ t)) ≤ b) :
    (answer.take b).Perm (answer'.take b) := by
  have hperm := h.perm.trans h'.perm.symm
  by_cases hb : b ≤ answer.length
  · rcases Nat.eq_zero_or_pos b with rfl | hpos
    · simp
    · obtain ⟨t, hcount, htake⟩ := h.take_eq_filter hpos hb huncut
      rw [htake, ← hcount, ← h'.perm.countP_eq, ← (h'.leading_le t).filter_eq_take]
      exact hperm.filter _
  · rw [List.take_of_length_le (by omega), List.take_of_length_le (by
      rw [← hperm.length_eq]
      omega)]
    exact hperm

/-- The first `n` pages of `limit` rows; page `k` is cut out of the answer `answers k`. -/
def pages (answers : Nat → List α) (limit n : Nat) : List α :=
  (List.range n).flatMap fun k => ((answers k).drop (k * limit)).take limit

theorem pages_succ (answers : Nat → List α) (limit n : Nat) :
    pages answers limit (n + 1) =
      pages answers limit n ++ ((answers n).drop (n * limit)).take limit := by
  simp [pages, List.range_succ]

section read

variable {answers : Nat → List α} {limit : Nat} (h : ∀ k, Sorts key rows (answers k))
include h

/-- The keys are those of one sorted list: page after page, they do not decrease. -/
theorem pages_keys (n : Nat) :
    (pages answers limit n).map key = ((answers 0).map key).take (n * limit) := by
  induction n with
  | zero => simp [pages]
  | succ n ih =>
    rw [pages_succ, List.map_append, ih, List.map_take, List.map_drop, (h n).keys_eq (h 0),
      Nat.succ_mul, List.take_add]

theorem pages_sorted (n : Nat) :
    (pages answers limit n).Pairwise fun x y => key x ≤ key y := by
  have hkeys : ((answers 0).map key).Pairwise (· ≤ ·) := List.pairwise_map.mpr (h 0).sorted
  have hpages : ((pages answers limit n).map key).Pairwise (· ≤ ·) := by
    rw [pages_keys h]
    exact hkeys.sublist (List.take_sublist _ _)
  exact List.pairwise_map.mp hpages

/-- Where no group is cut, the pages so far hold what any answer has up to there. -/
theorem pages_perm_take (huncut : ¬ CutsTie key rows limit) (n : Nat) {answer : List α}
    (hanswer : Sorts key rows answer) :
    (pages answers limit n).Perm (answer.take (n * limit)) := by
  induction n generalizing answer with
  | zero => simp [pages]
  | succ n ih =>
    have hstep : (answers n).take ((n + 1) * limit) =
        (answers n).take (n * limit) ++ ((answers n).drop (n * limit)).take limit := by
      rw [Nat.succ_mul, List.take_add]
    rw [pages_succ]
    have hpages := (ih (h n)).append_right (((answers n).drop (n * limit)).take limit)
    rw [← hstep] at hpages
    refine hpages.trans ((h n).take_perm hanswer ?_)
    intro t hbelow
    by_contra hcut
    exact huncut ⟨t, n + 1, hbelow, Nat.lt_of_not_le hcut⟩

theorem pages_perm (huncut : ¬ CutsTie key rows limit) {n : Nat}
    (hn : rows.length ≤ n * limit) : (pages answers limit n).Perm rows := by
  have hpages := pages_perm_take h huncut n (h 0)
  rw [List.take_of_length_le (by rwa [(h 0).perm.length_eq])] at hpages
  exact hpages.trans (h 0).perm

end read

/-- Two neighbours with one key change places. -/
theorem Sorts.swap {xs ys : List α} {x y : α} (h : Sorts key rows (xs ++ x :: y :: ys))
    (hkey : key x = key y) : Sorts key rows (xs ++ y :: x :: ys) where
  perm := ((List.Perm.swap x y ys).append_left xs).trans h.perm
  sorted := by
    have hsame : (xs ++ y :: x :: ys).map key = (xs ++ x :: y :: ys).map key := by simp [hkey]
    rw [← List.pairwise_map, hsame, List.pairwise_map]
    exact h.sorted

theorem mem_page {answer : List α} {offset limit i : Nat} (hi : i < answer.length)
    (hle : offset ≤ i) (hlt : i < offset + limit) :
    answer[i] ∈ (answer.drop offset).take limit := by
  rw [List.mem_take_iff_getElem]
  refine ⟨i - offset, ?_, ?_⟩
  · rw [List.length_drop]
    omega
  · rw [List.getElem_drop]
    congr 1
    omega

/-- A row that two pages show is repeated. -/
theorem not_nodup_pages {answers : Nat → List α} {limit n j k : Nat} {x : α} (hjk : j < k)
    (hk : k < n) (hj : x ∈ ((answers j).drop (j * limit)).take limit)
    (hx : x ∈ ((answers k).drop (k * limit)).take limit) : ¬ (pages answers limit n).Nodup := by
  intro hnodup
  have hdisjoint := (List.nodup_flatMap.mp hnodup).2
  rw [List.pairwise_iff_getElem] at hdisjoint
  have hpair := hdisjoint j k (by simp; omega) (by simpa) hjk
  simp only [List.getElem_range] at hpair
  exact hpair hj hx

/-- Where the group of a key stands in an answer. -/
theorem Sorts.key_getElem {answer : List α} (h : Sorts key rows answer) {t : β} {i : Nat}
    (hi : i < answer.length) (hbelow : rows.countP (fun x => decide (key x < t)) ≤ i)
    (hupto : i < rows.countP fun x => decide (key x ≤ t)) : key answer[i] = t := by
  have hlt := (h.leading_lt t).lt_countP_iff hi
  have hle := (h.leading_le t).lt_countP_iff hi
  rw [h.perm.countP_eq, decide_eq_true_eq] at hlt hle
  exact le_antisymm (hle.mp hupto) (not_lt.mp fun hkey => Nat.not_lt.mpr hbelow (hlt.mpr hkey))

/-- The list with the values at `i` and `i + 1` in each other's place. -/
def swapAt (xs : List α) (i : Nat) (hi : i + 1 < xs.length) : List α :=
  xs.take i ++ xs[i + 1] :: xs[i] :: xs.drop (i + 2)

theorem Sorts.swapAt {answer : List α} (h : Sorts key rows answer) {i : Nat}
    (hi : i + 1 < answer.length) (hkey : key answer[i] = key answer[i + 1]) :
    Sorts key rows (swapAt answer i hi) := by
  have hsplit : answer = answer.take i ++ answer[i] :: answer[i + 1] :: answer.drop (i + 2) := by
    rw [← List.drop_eq_getElem_cons, ← List.drop_eq_getElem_cons, List.take_append_drop]
  apply Sorts.swap _ hkey
  rw [← hsplit]
  exact h

theorem mem_page_swapAt {answer : List α} {i limit : Nat} (hi : i + 1 < answer.length)
    (hlimit : 0 < limit) : answer[i] ∈ ((swapAt answer i hi).drop (i + 1)).take limit := by
  have hlength : (answer.take i).length = i := by
    rw [List.length_take]
    omega
  have hdrop : (swapAt answer i hi).drop (i + 1) = answer[i] :: answer.drop (i + 2) := by
    rw [TiedOrder.swapAt, List.drop_append, hlength, List.drop_of_length_le (by omega),
      Nat.add_sub_cancel_left]
    rfl
  obtain ⟨l, rfl⟩ := Nat.exists_eq_succ_of_ne_zero (Nat.ne_of_gt hlimit)
  rw [hdrop, List.take_succ_cons]
  exact List.mem_cons_self

/-- Where a group is cut, some choice of answers repeats a row: the one before the boundary changes
places with the one behind it. -/
theorem exists_repeated {limit n : Nat} (hcut : CutsTie key rows limit)
    (hn : rows.length ≤ n * limit) :
    ∃ answers : Nat → List α, (∀ k, Sorts key rows (answers k)) ∧
      ¬ (pages answers limit n).Nodup := by
  obtain ⟨t, k, hbelow, hupto⟩ := hcut
  obtain ⟨answer, h⟩ : ∃ answer, Sorts key rows answer := ⟨_, sorts_mergeSort⟩
  have hcount := List.countP_le_length (p := fun x => decide (key x ≤ t)) (l := rows)
  have hlength := h.perm.length_eq
  obtain ⟨j, rfl⟩ : ∃ j, k = j + 1 :=
    Nat.exists_eq_succ_of_ne_zero (by rintro rfl; simp at hbelow)
  have hjn : j + 1 < n := by
    by_contra hle
    have := Nat.mul_le_mul_right limit (Nat.le_of_not_lt hle)
    omega
  have hstep : (j + 1) * limit = j * limit + limit := Nat.succ_mul j limit
  obtain ⟨b, hb⟩ : ∃ b, (j + 1) * limit = b + 1 :=
    Nat.exists_eq_succ_of_ne_zero (Nat.ne_of_gt (Nat.zero_lt_of_lt hbelow))
  have hlimit : 0 < limit := Nat.pos_of_ne_zero (by rintro rfl; simp at hb)
  rw [hb] at hbelow hupto
  have hlast : b < answer.length := by omega
  have hnext : b + 1 < answer.length := by omega
  have hkey : key answer[b] = key answer[b + 1] := by
    have hfirst : key answer[b] = t := h.key_getElem hlast (by omega) (by omega)
    have hsecond : key answer[b + 1] = t := h.key_getElem hnext (by omega) (by omega)
    rw [hfirst, hsecond]
  refine ⟨fun i => if i = j + 1 then swapAt answer b hnext else answer, ?_, ?_⟩
  · intro i
    dsimp only
    split
    · exact h.swapAt hnext hkey
    · exact h
  · have hshown : answer[b] ∈ (answer.drop (j * limit)).take limit :=
      mem_page hlast (by omega) (by omega)
    apply not_nodup_pages (Nat.lt_succ_self j) hjn
    · rw [if_neg (Nat.ne_of_lt (Nat.lt_succ_self j))]
      exact hshown
    · rw [if_pos rfl, hb]
      exact mem_page_swapAt hnext hlimit

end DataBridge.TiedOrder
