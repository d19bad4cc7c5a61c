import DataBridge.Framework.Keeps

namespace DataBridge

/-- A pass that leaves with a value in `P`, or starts over with variables nearer to the end. -/
def Pass.Nearer {α β : Type} (μ : β → Nat) (P : α → Prop) (limit : Nat) : Pass β α → Prop
  | .again b => μ b < limit
  | .done a => P a

namespace Call

variable {ε W S α β σ : Type} {P : α → Prop} {Q : β → Prop}

/-- The call ends, and a value that it returns is in `P`. -/
def Ends (P : α → Prop) (c : Call ε W α) : Prop :=
  ∀ w, wp c ⟨fun a _ => P a, fun _ _ => True, fun _ => False⟩ w

/-- The call returns, with a value in `P`. -/
def Returns (P : α → Prop) (c : Call ε W α) : Prop :=
  ∀ w, wp c ⟨fun a _ => P a, fun _ _ => False, fun _ => False⟩ w

theorem returns_pure {a : α} (h : P a) : Returns P (pure a : Call ε W α) := fun _ => h

theorem returns_modify (f : W → W) : Returns (fun _ => True) (modify f : Call ε W Unit) :=
  fun _ => trivial

theorem returns_read (f : W → α) : Returns (fun _ => True) (read f : Call ε W α) := fun _ => trivial

theorem Returns.exists {c : Call ε W α} (h : Returns P c) (w : W) :
    ∃ a w', c w = (.returned a, w') ∧ P a := exists_of_wp (h w)

theorem Returns.bind {c : Call ε W α} {f : α → Call ε W β} (hc : Returns P c)
    (hf : ∀ a, P a → Returns Q (f a)) : Returns Q (c >>= f) :=
  fun w => wp_seq (hc w) fun a w' h => hf a h w'

theorem Ends.bind {c : Call ε W α} {f : α → Call ε W β} (hc : Ends P c)
    (hf : ∀ a, P a → Ends Q (f a)) : Ends Q (c >>= f) :=
  fun w => wp_seq (hc w) fun a w' h => hf a h w'

theorem Returns.ends {c : Call ε W α} (hc : Returns P c) : Ends P c :=
  fun w => wp_mono (hc w) (fun _ _ h => h) (fun _ _ h => h.elim) (fun _ h => h)

theorem Ends.outcome {c : Call ε W α} (hc : Ends P c) (w : W) :
    (∃ a w', c w = (.returned a, w')) ∨ ∃ e w', c w = (.raised e, w') := by
  have h := hc w
  rw [wp] at h
  rcases hcase : c w with ⟨a | e | _, w'⟩
  · exact Or.inl ⟨a, w', rfl⟩
  · exact Or.inr ⟨e, w', rfl⟩
  · rw [hcase] at h
    exact h.elim

theorem Ends.mono {P' : α → Prop} {c : Call ε W α} (hc : Ends P c) (h : ∀ a, P a → P' a) :
    Ends P' c :=
  fun w => wp_mono (hc w) (fun a _ => h a) (fun _ _ h => h) (fun _ h => h)

/-- A call that ends, whose exceptions are handled by calls that return. -/
theorem Ends.tryExcept {c : Call ε W α} {h : ε → Call ε W α} (hc : Ends P c)
    (hh : ∀ e, Returns P (h e)) : Returns P (Call.tryExcept c h) := by
  intro w
  rw [wp_tryExcept]
  exact wp_mono (hc w) (fun _ _ h => h) (fun e w' _ => hh e w') (fun _ h => h)

/-- A call that returns needs no handler. -/
theorem Returns.tryExcept {c : Call ε W α} (h : ε → Call ε W α) (hc : Returns P c) :
    Returns P (Call.tryExcept c h) := by
  intro w
  rw [wp_tryExcept]
  exact wp_mono (hc w) (fun _ _ h => h) (fun _ _ h => h.elim) (fun _ h => h)

/-- What returns before the rest of a call. -/
theorem Returns.wp_seq {c : Call ε W α} {f : α → Call ε W β} {R : Post ε W β} (hc : Returns P c)
    (hf : ∀ a w, P a → wp (f a) R w) (w : W) : wp (c >>= f) R w :=
  Call.wp_seq (wp_mono (hc w) (fun _ _ h => h) (fun _ _ h => h.elim) (fun _ h => h.elim)) hf

theorem Ends.zoom {get : S → W} {put : W → S → S} {c : Call ε W α} (hc : Ends P c) :
    Ends P (Call.zoom get put c) := by
  intro s
  rw [wp_zoom]
  exact hc (get s)

theorem Returns.zoom {get : S → W} {put : W → S → S} {c : Call ε W α} (hc : Returns P c) :
    Returns P (Call.zoom get put c) := by
  intro s
  rw [wp_zoom]
  exact hc (get s)

/-- A loop whose variables come nearer to their end with every pass returns. -/
theorem Returns.loop {body : β → Call ε W (Pass β α)} (μ : β → Nat)
    (hbody : ∀ b, Returns (Pass.Nearer μ P (μ b)) (body b)) {fuel : Nat} {b : β}
    (hfuel : μ b < fuel) : Returns P (Call.loop body fuel b) := by
  intro w
  refine wp_loop (fun _ _ => True) (fun b _ => μ b) ?_ fuel b w trivial hfuel
  intro b w _
  refine wp_mono (hbody b w) ?_ (fun _ _ h => h) (fun _ h => h)
  intro p w' h
  cases p with
  | again b' => exact ⟨trivial, h⟩
  | done a => exact h

theorem Returns.forRange {P : Option α → Prop} {body : Nat → Call ε W (Option α)}
    (hnone : P none) (hbody : ∀ i, Returns P (body i)) (n i : Nat) :
    Returns P (Call.forRange body n i) := by
  induction n generalizing i with
  | zero => exact returns_pure hnone
  | succ n ih =>
    refine (hbody i).bind ?_
    intro r hr
    cases r with
    | none => exact ih (i + 1)
    | some a => exact returns_pure hr

end Call

end DataBridge
