import Mathlib.Logic.Relation
import Mathlib.Tactic.Common

namespace DataBridge

/-- A system that takes one enabled action at a time; `none` is an action that is not enabled. -/
structure Transition (σ α : Type) where
  step : σ → α → Option σ

namespace Transition

variable {σ α : Type} (m : Transition σ α) (ok : σ → α → Prop)

/-- `t` comes right after `s` by an action that `ok` allows in `s`. -/
def Next (s t : σ) : Prop := ∃ a, ok s a ∧ m.step s a = some t

/-- `t` comes after `s` by any number of allowed actions. -/
def Reaches : σ → σ → Prop := Relation.ReflTransGen (m.Next ok)

/-- Every action is allowed. -/
def anyAction : σ → α → Prop := fun _ _ => True

instance (s : σ) (a : α) : Decidable (anyAction s a) := inferInstanceAs (Decidable True)

/-- The state after a list of actions, each allowed and enabled when its turn comes. -/
def run [∀ s a, Decidable (ok s a)] (s : σ) : List α → Option σ
  | [] => some s
  | a :: as => if ok s a then (m.step s a).bind fun t => run t as else none

/-- `P` holds at every moment of a run: before its first action and after each. -/
def Throughout (P : σ → Prop) (s : σ) : List α → Prop
  | [] => P s
  | a :: as => P s ∧ ∀ t, m.step s a = some t → Throughout P t as

variable {m ok}

theorem Reaches.refl (s : σ) : m.Reaches ok s s := Relation.ReflTransGen.refl

theorem Reaches.trans {s t u : σ} (h : m.Reaches ok s t) (h' : m.Reaches ok t u) :
    m.Reaches ok s u := Relation.ReflTransGen.trans h h'

theorem Reaches.head {s t u : σ} {a : α} (ha : ok s a) (hstep : m.step s a = some t)
    (h : m.Reaches ok t u) : m.Reaches ok s u := Relation.ReflTransGen.head ⟨a, ha, hstep⟩ h

/-- What holds at first and is kept by every allowed action holds from then on. -/
theorem Reaches.invariant {I : σ → Prop}
    (hkeep : ∀ s a t, I s → ok s a → m.step s a = some t → I t) {s t : σ}
    (h : m.Reaches ok s t) (hs : I s) : I t := by
  induction h with
  | refl => exact hs
  | tail _ hnext ih =>
    obtain ⟨a, ha, hstep⟩ := hnext
    exact hkeep _ a _ ih ha hstep

theorem reaches_of_run [∀ s a, Decidable (ok s a)] {as : List α} {s t : σ}
    (h : m.run ok s as = some t) : m.Reaches ok s t := by
  induction as generalizing s with
  | nil =>
    cases h
    exact Reaches.refl _
  | cons a as ih =>
    rw [run] at h
    by_cases ha : ok s a
    · rw [if_pos ha] at h
      obtain ⟨u, hstep, hrest⟩ := Option.bind_eq_some_iff.mp h
      exact Reaches.head ha hstep (ih hrest)
    · rw [if_neg ha] at h
      cases h

/-- A run that ends in a state with `p` reaches such a state. -/
theorem exists_of_run [∀ s a, Decidable (ok s a)] {as : List α} {s : σ} {p : σ → Bool}
    (h : (m.run ok s as).map p = some true) : ∃ t, m.Reaches ok s t ∧ p t = true := by
  obtain ⟨t, hrun, hp⟩ := Option.map_eq_some_iff.mp h
  exact ⟨t, reaches_of_run hrun, hp⟩

end Transition

end DataBridge
