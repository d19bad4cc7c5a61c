import Mathlib.Data.List.Chain
import Mathlib.Data.List.Nodup
import Mathlib.Tactic.Common

namespace DataBridge.MovingPages

variable {α : Type}

/-- One page of a list. -/
def page (b offset : Nat) (t : List α) : List α := (t.drop offset).take b

/-- The pages read from successive states of a list, each from where the rows seen so far end. -/
def pages (b : Nat) : Nat → List (List α) → List (List α)
  | _, [] => []
  | offset, t :: ts => page b offset t :: pages b (offset + (page b offset t).length) ts

/-- Where the page after these starts. -/
def reached (b offset : Nat) (ts : List (List α)) : Nat :=
  offset + (pages b offset ts).flatten.length

theorem pages_snoc (b offset : Nat) (ts : List (List α)) (t : List α) :
    pages b offset (ts ++ [t]) = pages b offset ts ++ [page b (reached b offset ts) t] := by
  induction ts generalizing offset with
  | nil => simp [pages, reached]
  | cons t' ts ih =>
    have hnext : reached b (offset + (page b offset t').length) ts =
        reached b offset (t' :: ts) := by
      simp only [reached, pages, List.flatten_cons, List.length_append]
      omega
    rw [List.cons_append, pages, pages, ih, hnext, List.cons_append]

/-- Elements were removed anywhere, and new ones added at the end. -/
def Follows (t t' : List α) : Prop :=
  ∃ kept new, t' = kept ++ new ∧ kept.Sublist t ∧ ∀ x ∈ new, x ∉ t

section positions

variable [DecidableEq α]

/-- Between two pages `x` comes from at or behind the next offset to before it. -/
def Overtaken (b : Nat) (x : α) : Nat → List (List α) → Prop
  | offset, t :: t' :: ts =>
    (offset + (page b offset t).length ≤ t.idxOf x ∧
      t'.idxOf x < offset + (page b offset t).length) ∨
    Overtaken b x (offset + (page b offset t).length) (t' :: ts)
  | _, _ => False

/-- No gap between two pages changes what stands before the next offset. -/
def Undisturbed (b : Nat) : Nat → List (List α) → Prop
  | offset, t :: t' :: ts =>
    t'.take (offset + (page b offset t).length) = t.take (offset + (page b offset t).length) ∧
    Undisturbed b (offset + (page b offset t).length) (t' :: ts)
  | _, _ => True

instance decidableUndisturbed (b : Nat) : (offset : Nat) → (ts : List (List α)) →
    Decidable (Undisturbed b offset ts)
  | _, [] => .isTrue trivial
  | _, [_] => .isTrue trivial
  | offset, t :: t' :: ts =>
    have := decidableUndisturbed b (offset + (page b offset t).length) (t' :: ts)
    inferInstanceAs (Decidable (_ ∧ _))

theorem idxOf_le_of_sublist {kept t : List α} (h : kept.Sublist t) (hn : t.Nodup) {x : α}
    (hx : x ∈ kept) : kept.idxOf x ≤ t.idxOf x := by
  induction h with
  | slnil => cases hx
  | cons a h ih =>
    have hne : a ≠ x := fun he => (List.nodup_cons.mp hn).1 (he ▸ h.subset hx)
    have hle := ih (List.nodup_cons.mp hn).2 hx
    rw [List.idxOf_cons_ne _ hne]
    omega
  | cons_cons a h ih =>
    by_cases hax : a = x
    · rw [List.idxOf_cons_eq _ hax]
      exact Nat.zero_le _
    · have hmem : x ∈ _ := (List.mem_cons.mp hx).resolve_left (Ne.symm hax)
      have hle := ih (List.nodup_cons.mp hn).2 hmem
      rw [List.idxOf_cons_ne _ hax, List.idxOf_cons_ne _ hax]
      omega

/-- What stays moves only towards the front. -/
theorem Follows.idxOf_le {t t' : List α} (h : Follows t t') (hn : t.Nodup) {x : α} (hx : x ∈ t)
    (hx' : x ∈ t') : t'.idxOf x ≤ t.idxOf x := by
  obtain ⟨kept, new, rfl, hkept, hnew⟩ := h
  have hmem : x ∈ kept := (List.mem_append.mp hx').resolve_right fun hm => hnew x hm hx
  rw [List.idxOf_append_of_mem hmem]
  exact idxOf_le_of_sublist hkept hn hmem

/-- The elements of a page are those whose positions it covers. -/
theorem mem_page_iff {t : List α} (hn : t.Nodup) {x : α} (hx : x ∈ t) (b offset : Nat) :
    x ∈ page b offset t ↔
      offset ≤ t.idxOf x ∧ t.idxOf x < offset + (page b offset t).length := by
  have hlong : t.take (offset + (page b offset t).length) = t.take offset ++ page b offset t := by
    rw [List.take_add]
    congr 1
    rw [page, List.length_take, List.take_eq_take_min]
    simp
  have hall : x ∈ t.take offset ++ page b offset t ↔
      t.idxOf x < offset + (page b offset t).length := by
    rw [← hlong]
    exact List.mem_take_iff_idxOf_lt hx
  have hfront : x ∈ t.take offset ↔ t.idxOf x < offset := List.mem_take_iff_idxOf_lt hx
  have hdisjoint : x ∈ t.take offset → x ∉ page b offset t := by
    have hnodup : (t.take offset ++ page b offset t).Nodup := hlong ▸ hn.sublist (List.take_sublist _ _)
    exact fun hm hp => List.disjoint_of_nodup_append hnodup hm hp
  rw [List.mem_append] at hall
  constructor
  · intro hp
    refine ⟨?_, hall.mp (Or.inr hp)⟩
    by_contra hlt
    exact hdisjoint (hfront.mpr (by omega)) hp
  · intro h
    obtain ⟨hle, hlt⟩ := h
    refine (hall.mpr hlt).resolve_left fun hm => ?_
    have hlt' := hfront.mp hm
    omega

theorem count_page {t : List α} (hn : t.Nodup) {x : α} (b offset : Nat) :
    (page b offset t).count x = if x ∈ page b offset t then 1 else 0 := by
  have hsub : (page b offset t).Nodup :=
    hn.sublist ((List.take_sublist _ _).trans (List.drop_sublist _ _))
  split
  · exact List.count_eq_one_of_mem hsub ‹_›
  · exact List.count_eq_zero_of_not_mem ‹_›

/-- What stands before the next offset is not overtaken there. -/
theorem not_overtaken_cons {b : Nat} {x : α} {t : List α} {ts : List (List α)} {offset : Nat}
    (hlt : t.idxOf x < offset + (page b offset t).length)
    (hnot : ¬ Overtaken b x (offset + (page b offset t).length) ts) :
    ¬ Overtaken b x offset (t :: ts) := by
  cases ts with
  | nil => exact id
  | cons t' ts =>
    intro hcases
    rcases hcases with ⟨hge, -⟩ | hlater
    · omega
    · exact hnot hlater

/-- An element the offset has passed is on no later page. -/
theorem count_pages_of_passed {b : Nat} {x : α} {ts : List (List α)} {offset : Nat}
    (hn : ∀ t ∈ ts, t.Nodup) (hx : ∀ t ∈ ts, x ∈ t) (hchain : ts.IsChain Follows)
    (hpassed : ∀ t ∈ ts.head?, t.idxOf x < offset) :
    (pages b offset ts).flatten.count x = 0 ∧ ¬ Overtaken b x offset ts := by
  induction ts generalizing offset with
  | nil => exact ⟨rfl, id⟩
  | cons t ts ih =>
    have hlt : t.idxOf x < offset := hpassed t rfl
    have hnotin : x ∉ page b offset t := by
      rw [mem_page_iff (hn t List.mem_cons_self) (hx t List.mem_cons_self)]
      omega
    have hnext : ∀ t' ∈ ts.head?, t'.idxOf x < offset + (page b offset t).length := by
      intro t' ht'
      have hmem := List.mem_of_mem_head? ht'
      have hle : t'.idxOf x ≤ t.idxOf x :=
        (List.isChain_cons.mp hchain).1 t' ht' |>.idxOf_le (hn t List.mem_cons_self)
          (hx t List.mem_cons_self) (hx t' (List.mem_cons_of_mem t hmem))
      omega
    obtain ⟨hzero, hnot⟩ := ih (fun t' h => hn t' (List.mem_cons_of_mem t h))
      (fun t' h => hx t' (List.mem_cons_of_mem t h)) (List.isChain_cons.mp hchain).2 hnext
    constructor
    · rw [pages, List.flatten_cons, List.count_append, hzero,
        count_page (hn t List.mem_cons_self), if_neg hnotin]
    · exact not_overtaken_cons (by omega) hnot

/-- An element that stays throughout is on at most one page; where the last page is empty it is on
one just when no gap lets the offset overtake it. -/
theorem count_pages {b : Nat} {x : α} {ts : List (List α)} {offset : Nat}
    (hn : ∀ t ∈ ts, t.Nodup) (hx : ∀ t ∈ ts, x ∈ t) (hchain : ts.IsChain Follows)
    (hahead : ∀ t ∈ ts.head?, offset ≤ t.idxOf x) :
    (pages b offset ts).flatten.count x ≤ 1 ∧
      (0 < b → (pages b offset ts).getLast? = some [] →
        ((pages b offset ts).flatten.count x = 1 ↔ ¬ Overtaken b x offset ts)) := by
  induction ts generalizing offset with
  | nil => exact ⟨Nat.zero_le _, fun _ h => by cases h⟩
  | cons t ts ih =>
    have hnt := hn t List.mem_cons_self
    have hxt := hx t List.mem_cons_self
    have hge : offset ≤ t.idxOf x := hahead t rfl
    have hn' : ∀ t' ∈ ts, t'.Nodup := fun t' h => hn t' (List.mem_cons_of_mem t h)
    have hx' : ∀ t' ∈ ts, x ∈ t' := fun t' h => hx t' (List.mem_cons_of_mem t h)
    obtain ⟨hfollow, hchain'⟩ := List.isChain_cons.mp hchain
    have hcount : (pages b offset (t :: ts)).flatten.count x =
        (page b offset t).count x +
          (pages b (offset + (page b offset t).length) ts).flatten.count x := by
      rw [pages, List.flatten_cons, List.count_append]
    rw [hcount, count_page hnt]
    by_cases hon : x ∈ page b offset t
    · -- on this page, and on none after it
      have hcovers := (mem_page_iff hnt hxt b offset).mp hon
      have hpassed : ∀ t' ∈ ts.head?, t'.idxOf x < offset + (page b offset t).length := by
        intro t' ht'
        have hle := (hfollow t' ht').idxOf_le hnt hxt (hx' t' (List.mem_of_mem_head? ht'))
        omega
      obtain ⟨hzero, hnot⟩ := count_pages_of_passed (b := b) hn' hx' hchain' hpassed
      have hnever : ¬ Overtaken b x offset (t :: ts) := not_overtaken_cons (by omega) hnot
      rw [hzero, if_pos hon]
      exact ⟨Nat.le_refl _, fun _ _ => iff_of_true rfl hnever⟩
    · have hbehind : offset + (page b offset t).length ≤ t.idxOf x := by
        by_contra hlt
        exact hon ((mem_page_iff hnt hxt b offset).mpr ⟨hge, by omega⟩)
      rw [if_neg hon, Nat.zero_add]
      cases ts with
      | nil =>
        refine ⟨Nat.zero_le _, fun hb hlast => ?_⟩
        have hempty : page b offset t = [] := by simpa [pages] using hlast
        have hshort : t.length ≤ offset := by
          rw [page, List.take_eq_nil_iff, List.drop_eq_nil_iff] at hempty
          omega
        have hin := List.idxOf_lt_length_of_mem hxt
        omega
      | cons t' ts =>
        by_cases hcarried : t'.idxOf x < offset + (page b offset t).length
        · obtain ⟨hzero, -⟩ := count_pages_of_passed (b := b) hn' hx' hchain'
            (fun t'' h => by cases h; exact hcarried)
          rw [hzero]
          refine ⟨Nat.zero_le _, fun _ _ => iff_of_false (by decide) ?_⟩
          exact not_not_intro (Or.inl ⟨hbehind, hcarried⟩)
        · have hahead' : ∀ t'' ∈ (t' :: ts).head?,
              offset + (page b offset t).length ≤ t''.idxOf x := by
            intro t'' h
            cases h
            omega
          obtain ⟨hle, hiff⟩ := ih hn' hx' hchain' hahead'
          refine ⟨hle, fun hb hlast => ?_⟩
          have hlast' : (pages b (offset + (page b offset t).length) (t' :: ts)).getLast? =
              some [] := by
            rw [pages, pages, List.getLast?_cons_cons] at hlast
            rw [pages]
            exact hlast
          rw [hiff hb hlast']
          constructor
          · intro hnot hside
            rcases hside with ⟨-, hlt⟩ | hlater
            · exact hcarried hlt
            · exact hnot hlater
          · exact fun hnot hlater => hnot (Or.inr hlater)

theorem not_overtaken_of_undisturbed {b : Nat} {x : α} {ts : List (List α)} {offset : Nat}
    (hx : ∀ t ∈ ts, x ∈ t) (h : Undisturbed b offset ts) : ¬ Overtaken b x offset ts := by
  induction ts generalizing offset with
  | nil => exact id
  | cons t ts ih =>
    cases ts with
    | nil => exact id
    | cons t' ts =>
      obtain ⟨hsame, hrest⟩ := h
      intro hcases
      rcases hcases with ⟨hge, hlt⟩ | hlater
      · have hfront := (List.mem_take_iff_idxOf_lt (hx t' (by simp))).mpr hlt
        rw [hsame] at hfront
        have hlt' := (List.mem_take_iff_idxOf_lt (hx t (by simp))).mp hfront
        omega
      · exact ih (fun t'' hm => hx t'' (List.mem_cons_of_mem t hm)) hrest hlater

end positions

end DataBridge.MovingPages
