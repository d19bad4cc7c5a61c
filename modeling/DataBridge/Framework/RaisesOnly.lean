import DataBridge.Framework.Call

namespace DataBridge.Call

variable {ε W S α β σ : Type} {P : ε → Prop}

/-- Whatever the call raises is in `P`. -/
def RaisesOnly (P : ε → Prop) (c : Call ε W α) : Prop :=
  ∀ w, wp c ⟨fun _ _ => True, fun e _ => P e, fun _ => True⟩ w

theorem raisesOnly_pure (a : α) : RaisesOnly P (pure a : Call ε W α) := fun _ => trivial

theorem raisesOnly_modify (f : W → W) : RaisesOnly P (modify f : Call ε W Unit) := fun _ => trivial

theorem raisesOnly_read (f : W → α) : RaisesOnly P (read f : Call ε W α) := fun _ => trivial

theorem raisesOnly_raise {e : ε} (h : P e) : RaisesOnly P (raise e : Call ε W α) := fun _ => h

theorem raisesOnly_ofExcept {r : Except ε α} (h : ∀ e, r = .error e → P e) :
    RaisesOnly P (ofExcept r : Call ε W α) := by
  cases r with
  | ok a => exact raisesOnly_pure a
  | error e => exact raisesOnly_raise (h e rfl)

theorem RaisesOnly.raised {c : Call ε W α} (h : RaisesOnly P c) {w w' : W} {e : ε}
    (hc : c w = (.raised e, w')) : P e := wp_of_raised (h w) hc

theorem RaisesOnly.bind {c : Call ε W α} {f : α → Call ε W β} (hc : RaisesOnly P c)
    (hf : ∀ a, RaisesOnly P (f a)) : RaisesOnly P (c >>= f) :=
  fun w => wp_seq (hc w) fun a w' _ => hf a w'

/-- What the handler raises is all that leaves a `try`. -/
theorem raisesOnly_tryExcept (c : Call ε W α) {h : ε → Call ε W α}
    (hh : ∀ e, RaisesOnly P (h e)) : RaisesOnly P (tryExcept c h) := by
  intro w
  rw [wp_tryExcept]
  exact wp_of_forall (fun _ _ => trivial) (fun e w' => hh e w') (fun _ => trivial)

theorem RaisesOnly.tryExcept {c : Call ε W α} {h : ε → Call ε W α} (hc : RaisesOnly P c)
    (hh : ∀ e, P e → RaisesOnly P (h e)) : RaisesOnly P (tryExcept c h) := by
  intro w
  rw [wp_tryExcept]
  exact wp_mono (hc w) (fun _ _ h => h) (fun e w' he => hh e he w') (fun _ h => h)

theorem RaisesOnly.tryFinally {c : Call ε W α} {f : Call ε W Unit} (hc : RaisesOnly P c)
    (hf : RaisesOnly P f) : RaisesOnly P (tryFinally c f) := by
  intro w
  rw [wp_tryFinally]
  refine wp_mono (hc w) (fun _ w' _ => hf w') (fun e w' he => ?_) (fun _ h => h)
  exact wp_mono (hf w') (fun _ _ _ => he) (fun _ _ h => h) (fun _ h => h)

theorem RaisesOnly.zoom {get : S → W} {put : W → S → S} {c : Call ε W α} (hc : RaisesOnly P c) :
    RaisesOnly P (Call.zoom get put c) := by
  intro s
  rw [wp_zoom]
  exact hc (get s)

theorem RaisesOnly.loop {body : β → Call ε W (Pass β α)} (hbody : ∀ b, RaisesOnly P (body b))
    (fuel : Nat) (b : β) : RaisesOnly P (Call.loop body fuel b) := by
  induction fuel generalizing b with
  | zero => exact fun _ => trivial
  | succ fuel ih =>
    refine (hbody b).bind fun p => ?_
    cases p with
    | again b' => exact ih b'
    | done a => exact raisesOnly_pure a

theorem RaisesOnly.forRange {body : Nat → Call ε W (Option α)} (hbody : ∀ i, RaisesOnly P (body i))
    (n i : Nat) : RaisesOnly P (Call.forRange body n i) := by
  induction n generalizing i with
  | zero => exact raisesOnly_pure none
  | succ n ih =>
    refine (hbody i).bind fun r => ?_
    cases r with
    | none => exact ih (i + 1)
    | some a => exact raisesOnly_pure (some a)

theorem RaisesOnly.forEach {body : σ → β → Call ε W (Pass σ σ)}
    (hbody : ∀ s x, RaisesOnly P (body s x)) (xs : List β) (s : σ) :
    RaisesOnly P (Call.forEach body xs s) := by
  induction xs generalizing s with
  | nil => exact raisesOnly_pure s
  | cons x xs ih =>
    refine (hbody s x).bind fun p => ?_
    cases p with
    | again s' => exact ih s'
    | done s' => exact raisesOnly_pure s'

end DataBridge.Call
