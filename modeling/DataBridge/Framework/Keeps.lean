import DataBridge.Framework.Call

namespace DataBridge.Call

variable {ε W S α β σ : Type} {I K : W → Prop}

/-- The call keeps `I`, whichever way it ends. -/
def Keeps (I : W → Prop) (c : Call ε W α) : Prop :=
  ∀ w, I w → wp c ⟨fun _ w' => I w', fun _ w' => I w', I⟩ w

theorem keeps_snd {c : Call ε W α} (hc : Keeps I c) {w : W} (h : I w) : I (c w).2 := by
  have hw := hc w h
  rw [wp] at hw
  cases hr : c w with
  | mk o w' =>
    rw [hr] at hw
    cases o <;> exact hw

/-- A call keeps what the world it ends in meets. -/
theorem keeps_of_snd {c : Call ε W α} (h : ∀ w, I w → I (c w).2) : Keeps I c := by
  intro w hw
  have hend := h w hw
  rw [wp]
  rcases hc : c w with ⟨_ | _ | _, w'⟩
  · rw [hc] at hend
    exact hend
  · rw [hc] at hend
    exact hend
  · rw [hc] at hend
    exact hend

theorem keeps_pure (a : α) : Keeps I (pure a : Call ε W α) := fun _ h => h

theorem keeps_read (f : W → α) : Keeps I (read f : Call ε W α) := fun _ h => h

theorem keeps_ofExcept (r : Except ε α) : Keeps I (ofExcept r : Call ε W α) := by
  intro w h
  cases r with
  | ok a => exact h
  | error e => exact h

theorem keeps_modify {f : W → W} (hf : ∀ w, I w → I (f w)) :
    Keeps I (modify f : Call ε W Unit) := hf

theorem Keeps.bind {c : Call ε W α} {f : α → Call ε W β} (hc : Keeps I c)
    (hf : ∀ a, Keeps I (f a)) : Keeps I (c >>= f) := by
  intro w h
  rw [wp_bind]
  exact wp_mono (hc w h) (fun a w' h' => hf a w' h') (fun _ _ h' => h') (fun _ h' => h')

/-- A first call whose value has a property that the rest needs. -/
theorem Keeps.bind_of {P : α → Prop} {c : Call ε W α} {f : α → Call ε W β}
    (hc : ∀ w, I w → wp c ⟨fun a w' => P a ∧ I w', fun _ => I, I⟩ w)
    (hf : ∀ a, P a → Keeps I (f a)) : Keeps I (c >>= f) :=
  fun w hw => wp_seq (hc w hw) fun a w' h => hf a h.1 w' h.2

theorem Keeps.tryExcept {c : Call ε W α} {h : ε → Call ε W α} (hc : Keeps I c)
    (hh : ∀ e, Keeps I (h e)) : Keeps I (Call.tryExcept c h) := by
  intro w hw
  rw [wp_tryExcept]
  exact wp_mono (hc w hw) (fun _ _ h' => h') (fun e w' h' => hh e w' h') (fun _ h' => h')

theorem Keeps.tryFinally {c : Call ε W α} {f : Call ε W Unit} (hc : Keeps I c)
    (hf : Keeps I f) : Keeps I (Call.tryFinally c f) := by
  intro w hw
  rw [wp_tryFinally]
  exact wp_mono (hc w hw) (fun _ w' h' => hf w' h') (fun _ w' h' => hf w' h') (fun _ h' => h')

/-- A call on a part of the state keeps what the larger state is to keep. -/
theorem Keeps.zoom {get : S → W} {put : W → S → S} {J : S → Prop} {c : Call ε W α}
    (hc : Keeps I c) (hget : ∀ s, J s → I (get s)) (hput : ∀ s w, J s → I w → J (put w s)) :
    Keeps J (Call.zoom get put c) := by
  intro s hs
  rw [wp_zoom]
  exact wp_mono (hc (get s) (hget s hs)) (fun _ w h => hput s w hs h)
    (fun _ w h => hput s w hs h) (fun w h => hput s w hs h)

theorem Keeps.loop {body : β → Call ε W (Pass β α)} (hbody : ∀ b, Keeps I (body b)) (fuel : Nat)
    (b : β) : Keeps I (Call.loop body fuel b) := by
  intro w hw
  refine wp_loop_weak (fun _ w' => I w') ?_ (fun _ _ h => h) fuel b w hw
  intro b' w' h
  refine wp_mono (hbody b' w' h) ?_ (fun _ _ h' => h') (fun _ h' => h')
  intro p w'' h'
  cases p <;> exact h'

theorem Keeps.forEach {body : σ → β → Call ε W (Pass σ σ)} (hbody : ∀ s x, Keeps I (body s x))
    (xs : List β) (s : σ) : Keeps I (Call.forEach body xs s) := by
  induction xs generalizing s with
  | nil => exact keeps_pure s
  | cons x xs ih =>
    refine (hbody s x).bind ?_
    intro p
    cases p with
    | again s' => exact ih s'
    | done s' => exact keeps_pure s'

/-- From every world in `I` the call ends in `K`, whichever way it ends. -/
def Leads (I K : W → Prop) (c : Call ε W α) : Prop := ∀ w, I w → K (c w).2

/-- What the first call brings about is kept by the rest. -/
theorem Leads.bind {c : Call ε W α} {f : α → Call ε W β} (hc : Leads I K c)
    (hf : ∀ a, Keeps K (f a)) : Leads I K (c >>= f) := by
  intro w hw
  have hend := hc w hw
  change K (Call.bind c f w).2
  unfold Call.bind
  rcases hcall : c w with ⟨a | _ | _, w'⟩
  · rw [hcall] at hend
    exact keeps_snd (hf a) hend
  · rw [hcall] at hend
    exact hend
  · rw [hcall] at hend
    exact hend

end DataBridge.Call
