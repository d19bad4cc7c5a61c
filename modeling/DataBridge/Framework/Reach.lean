import Mathlib.Logic.Relation
import Mathlib.Tactic.Common

namespace DataBridge.Reach

variable {α : Type}

/-- Is there a path of `edges`? A path over `e :: edges` needs `e` at most once. -/
def reaches [DecidableEq α] : List (α × α) → α → α → Bool
  | [], a, b => a = b
  | e :: edges, a, b => reaches edges a b || (reaches edges a e.1 && reaches edges e.2 b)

def Edge (edges : List (α × α)) (a b : α) : Prop := (a, b) ∈ edges

private theorem path_cons {edges : List (α × α)} {e : α × α} {a b : α}
    (h : Relation.ReflTransGen (Edge (e :: edges)) a b) :
    Relation.ReflTransGen (Edge edges) a b ∨
      Relation.ReflTransGen (Edge edges) a e.1 ∧ Relation.ReflTransGen (Edge edges) e.2 b := by
  induction h with
  | refl => exact Or.inl .refl
  | @tail c b _ hedge ih =>
    have hstart : Relation.ReflTransGen (Edge edges) a c ∨
        Relation.ReflTransGen (Edge edges) a e.1 := ih.imp_right And.left
    rcases List.mem_cons.mp hedge with hnew | hold
    · subst hnew
      exact Or.inr ⟨hstart.elim id id, .refl⟩
    · rcases ih with hac | ⟨hae, hec⟩
      · exact Or.inl (hac.tail hold)
      · exact Or.inr ⟨hae, hec.tail hold⟩

theorem reaches_iff [DecidableEq α] (edges : List (α × α)) (a b : α) :
    reaches edges a b = true ↔ Relation.ReflTransGen (Edge edges) a b := by
  induction edges generalizing a b with
  | nil =>
    constructor
    · intro h
      have hab : a = b := by simpa [reaches] using h
      exact hab ▸ .refl
    · intro h
      cases h with
      | refl => simp [reaches]
      | tail _ hedge => cases hedge
  | cons e edges ih =>
    have hmono : ∀ {x y : α}, Relation.ReflTransGen (Edge edges) x y →
        Relation.ReflTransGen (Edge (e :: edges)) x y :=
      fun {x y} h => h.lift id fun _ _ hm => List.mem_cons_of_mem e hm
    simp only [reaches, Bool.or_eq_true, Bool.and_eq_true, ih]
    constructor
    · intro h
      rcases h with hab | ⟨hae, heb⟩
      · exact hmono hab
      · exact ((hmono hae).tail List.mem_cons_self).trans (hmono heb)
    · exact path_cons

end DataBridge.Reach
