import Mathlib.Data.List.Nodup
import Mathlib.Data.List.Perm.Subperm
import Mathlib.Tactic.Common

namespace DataBridge.Keyed

variable {α : Type} (skips : List α → α → Bool)

/-- Add a row unless it is one that the table, as it stands, skips. -/
def insert (table : List α) (row : α) : List α :=
  if skips table row then table else table ++ [row]

/-- Add row after row, each against the table as the rows before it left it. -/
def insertAll (table rows : List α) : List α := rows.foldl (insert skips) table

/-- No row is skipped by the table with the rows that come before it. -/
def Fresh (table rows : List α) : Prop :=
  ∀ earlier row later, rows = earlier ++ row :: later → skips (table ++ earlier) row = false

theorem fresh_nil (table : List α) : Fresh skips table [] := by
  intro earlier row later h
  simp at h

theorem fresh_cons (table rows : List α) (row : α) :
    Fresh skips table (row :: rows) ↔
      skips table row = false ∧ Fresh skips (table ++ [row]) rows := by
  constructor
  · intro h
    refine ⟨by simpa using h [] row rows rfl, ?_⟩
    intro earlier r later heq
    have hskips := h (row :: earlier) r later (by rw [heq, List.cons_append])
    rw [List.append_assoc, List.singleton_append]
    exact hskips
  · intro h earlier r later heq
    obtain ⟨hrow, hrest⟩ := h
    cases earlier with
    | nil =>
      obtain ⟨rfl, -⟩ := List.cons.inj heq
      simpa using hrow
    | cons e earlier =>
      obtain ⟨rfl, hlater⟩ := List.cons.inj heq
      have hskips := hrest earlier r later hlater
      rw [List.append_assoc, List.singleton_append] at hskips
      exact hskips

/-- Rows are skipped that conflict with one that is there. -/
def conflicting (conflict : α → α → Bool) (table : List α) (row : α) : Bool :=
  table.any (conflict row)

/-- No row conflicts with a row of the table or with an earlier row. -/
theorem fresh_conflicting_iff (conflict : α → α → Bool) (table rows : List α) :
    Fresh (conflicting conflict) table rows ↔
      (∀ row ∈ rows, ∀ old ∈ table, conflict row old = false) ∧
        rows.Pairwise fun earlier later => conflict later earlier = false := by
  induction rows generalizing table with
  | nil => exact iff_of_true (fresh_nil _ table) ⟨by simp, List.Pairwise.nil⟩
  | cons row rows ih =>
    rw [fresh_cons, ih, List.pairwise_cons, conflicting, List.any_eq_false]
    constructor
    · intro h
      obtain ⟨hrow, hold, hrest⟩ := h
      refine ⟨?_, fun r hr => hold r hr row (by simp), hrest⟩
      intro r hr old ho
      rcases List.mem_cons.mp hr with he | hmem
      · subst he
        simpa using hrow old ho
      · exact hold r hmem old (by simp [ho])
    · intro h
      obtain ⟨hold, hfirst, hrest⟩ := h
      refine ⟨fun old ho => by simp [hold row (by simp) old ho], ?_, hrest⟩
      intro r hr old ho
      rcases List.mem_append.mp ho with hmem | hnew
      · exact hold r (by simp [hr]) old hmem
      · have he : old = row := by simpa using hnew
        exact he ▸ hfirst r hr

theorem insert_length (table : List α) (row : α) :
    (insert skips table row).length =
      table.length + if skips table row then 0 else 1 := by
  rw [insert]
  split <;> simp

/-- A statement adds at most its rows and removes nothing. -/
theorem insertAll_length (table rows : List α) :
    table.length ≤ (insertAll skips table rows).length ∧
      (insertAll skips table rows).length ≤ table.length + rows.length := by
  induction rows generalizing table with
  | nil => exact ⟨Nat.le_refl _, Nat.le_refl _⟩
  | cons row rows ih =>
    have hrest := ih (insert skips table row)
    have hone := insert_length skips table row
    rw [List.length_cons]
    change table.length ≤ (insertAll skips (insert skips table row) rows).length ∧
      (insertAll skips (insert skips table row) rows).length ≤ _
    split at hone <;> omega

/-- A statement adds all its rows just when they are fresh. -/
theorem insertAll_length_eq_iff (table rows : List α) :
    (insertAll skips table rows).length = table.length + rows.length ↔
      Fresh skips table rows := by
  induction rows generalizing table with
  | nil => exact iff_of_true rfl (fresh_nil skips table)
  | cons row rows ih =>
    have hbound := insertAll_length skips (insert skips table row) rows
    have hone := insert_length skips table row
    rw [fresh_cons, List.length_cons]
    change (insertAll skips (insert skips table row) rows).length = _ ↔ _
    by_cases hc : skips table row
    · rw [if_pos hc] at hone
      constructor
      · intro h
        omega
      · intro h
        exact absurd hc (by simp [h.1])
    · have hadd : insert skips table row = table ++ [row] := if_neg hc
      have hlen : (table ++ [row]).length = table.length + 1 := by simp
      have hcount := ih (table ++ [row])
      rw [hadd]
      constructor
      · intro h
        exact ⟨by simpa using hc, hcount.mp (by omega)⟩
      · intro h
        have hall := hcount.mpr h.2
        omega

theorem prefix_insert (table : List α) (row : α) : table <+: insert skips table row := by
  rw [insert]
  split
  · exact List.prefix_rfl
  · exact List.prefix_append table [row]

/-- A statement keeps what a single row keeps. -/
theorem insertAll_keeps {P : List α → Prop} {rows : List α}
    (hrow : ∀ table, ∀ row ∈ rows, P table → P (insert skips table row)) (table : List α)
    (h : P table) : P (insertAll skips table rows) := by
  induction rows generalizing table with
  | nil => exact h
  | cons row rows ih =>
    have hfirst := hrow table row List.mem_cons_self h
    exact ih (fun t r hr => hrow t r (List.mem_cons_of_mem row hr)) _ hfirst

section sameKey

variable {κ : Type} [DecidableEq κ] (key : α → κ)

/-- The rule of a unique key. -/
def sameKey : List α → α → Bool := conflicting fun row old => key row = key old

theorem sameKey_iff (table : List α) (row : α) :
    sameKey key table row = true ↔ ∃ old ∈ table, key row = key old := by
  simp [sameKey, conflicting]

theorem insert_nodup {table : List α} (row : α) (h : table.Nodup) :
    (insert (sameKey key) table row).Nodup := by
  rw [insert]
  split
  · exact h
  · rename_i hnew
    have hmem : row ∉ table := fun hr => hnew ((sameKey_iff key table row).mpr ⟨row, hr, rfl⟩)
    exact h.append (List.nodup_singleton row) (by simpa [List.disjoint_singleton] using hmem)

theorem insert_subset {table target : List α} {row : α} (h : table ⊆ target) (hrow : row ∈ target) :
    insert (sameKey key) table row ⊆ target := by
  rw [insert]
  split
  · exact h
  · exact List.append_subset.mpr ⟨h, by simpa using hrow⟩

/-- Where keys tell the rows of `target` apart, a row of it is in the table after its insert. -/
theorem mem_insert_self {table target : List α} {row : α} (hkeys : (target.map key).Nodup)
    (h : table ⊆ target) (hrow : row ∈ target) : row ∈ insert (sameKey key) table row := by
  rw [insert]
  split
  · rename_i hold
    obtain ⟨old, hmem, heq⟩ := (sameKey_iff key table row).mp hold
    have he : row = old := List.inj_on_of_nodup_map hkeys hrow (h hmem) heq
    exact he ▸ hmem
  · simp

theorem subset_insertAll {table target rows : List α} (hkeys : (target.map key).Nodup)
    (h : table ⊆ target) (hrows : rows ⊆ target) : rows ⊆ insertAll (sameKey key) table rows := by
  induction rows generalizing table with
  | nil => simp
  | cons row rows ih =>
    have hrow : row ∈ target := hrows List.mem_cons_self
    have hnext := insert_subset key h hrow
    have hself : row ∈ insertAll (sameKey key) (insert (sameKey key) table row) rows := by
      apply insertAll_keeps (sameKey key)
      · exact fun t r _ ht => (prefix_insert (sameKey key) t r).subset ht
      · exact mem_insert_self key hkeys h hrow
    exact List.cons_subset.mpr ⟨hself, ih hnext (List.cons_subset.mp hrows).2⟩

/-- Offered all rows of `target`, and no others, a table ends as these just when it started as some
of them. -/
theorem insertAll_perm_iff {table target rows : List α} (hkeys : (target.map key).Nodup)
    (hrows : rows ⊆ target) (hall : target ⊆ rows) :
    (insertAll (sameKey key) table rows).Perm target ↔ table.Subperm target := by
  constructor
  · intro h
    have hprefix : table <+: insertAll (sameKey key) table rows :=
      insertAll_keeps (P := (table <+: ·)) (sameKey key)
        (fun t row _ ht => ht.trans (prefix_insert (sameKey key) t row)) table List.prefix_rfl
    exact hprefix.sublist.subperm.trans h.subperm
  · intro h
    have hnodup : target.Nodup := hkeys.of_map key
    have hold : table.Nodup ∧ table ⊆ target := by
      obtain ⟨part, hperm, hpart⟩ := h
      exact ⟨hperm.nodup_iff.mp (hnodup.sublist hpart),
        fun r hr => hpart.subset (hperm.mem_iff.mpr hr)⟩
    have hnew : (insertAll (sameKey key) table rows).Nodup ∧
        insertAll (sameKey key) table rows ⊆ target := by
      apply insertAll_keeps (P := fun t => t.Nodup ∧ t ⊆ target)
      · exact fun t row hrow ht => ⟨insert_nodup key row ht.1, insert_subset key ht.2 (hrows hrow)⟩
      · exact hold
    have hfull := subset_insertAll key hkeys hold.2 hrows
    apply (List.perm_ext_iff_of_nodup hnew.1 hnodup).mpr
    exact fun r => ⟨fun hr => hnew.2 hr, fun hr => hfull (hall hr)⟩

/-- A duplicate-free part of `target` is offered rows of `target`, and is one afterwards. -/
theorem insertAll_part {table target rows : List α} (h : table.Nodup ∧ table ⊆ target)
    (hrows : rows ⊆ target) : (insertAll (sameKey key) table rows).Nodup ∧
      insertAll (sameKey key) table rows ⊆ target := by
  apply insertAll_keeps (P := fun t => t.Nodup ∧ t ⊆ target)
  · intro t row hrow ht
    exact ⟨insert_nodup key row ht.1, insert_subset key ht.2 (hrows hrow)⟩
  · exact h

/-- Rows that are in the table already change nothing. -/
theorem insert_of_mem {table : List α} {row : α} (h : row ∈ table) :
    insert (sameKey key) table row = table :=
  if_pos ((sameKey_iff key table row).mpr ⟨row, h, rfl⟩)

end sameKey

end DataBridge.Keyed
