import DataBridge.Framework.Keeps

namespace DataBridge.Call

variable {ε W S α β σ : Type} {I : W → Prop} {P : α → Prop} {Q : β → Prop}

/-- The call keeps `I`, whichever way it ends, and what it returns has `P`. -/
def Yields (I : W → Prop) (P : α → Prop) (c : Call ε W α) : Prop :=
  ∀ w, I w → wp c ⟨fun a w' => P a ∧ I w', fun _ w' => I w', I⟩ w

theorem Keeps.yields {c : Call ε W α} (hc : Keeps I c) : Yields I (fun _ => True) c :=
  fun w hw => wp_mono (hc w hw) (fun _ _ h => ⟨trivial, h⟩) (fun _ _ h => h) (fun _ h => h)

theorem Yields.keeps {c : Call ε W α} (hc : Yields I P c) : Keeps I c :=
  fun w hw => wp_mono (hc w hw) (fun _ _ h => h.2) (fun _ _ h => h) (fun _ h => h)

theorem yields_pure {a : α} (ha : P a) : Yields I P (pure a : Call ε W α) := fun _ hw => ⟨ha, hw⟩

theorem Yields.mono {P' : α → Prop} {c : Call ε W α} (hc : Yields I P c)
    (h : ∀ a, P a → P' a) : Yields I P' c :=
  fun w hw => wp_mono (hc w hw) (fun a _ ha => ⟨h a ha.1, ha.2⟩) (fun _ _ h => h) (fun _ h => h)

theorem Yields.bind {c : Call ε W α} {f : α → Call ε W β} (hc : Yields I P c)
    (hf : ∀ a, P a → Yields I Q (f a)) : Yields I Q (c >>= f) :=
  fun w hw => wp_seq (hc w hw) fun a w' h => hf a h.1 w' h.2

/-- A read whose answer the invariant knows. -/
theorem yields_read {f : W → α} (hf : ∀ w, I w → P (f w)) :
    Yields I P (read f : Call ε W α) := fun w hw => ⟨hf w hw, hw⟩

theorem Yields.tryExcept {c : Call ε W α} {h : ε → Call ε W α} (hc : Yields I P c)
    (hh : ∀ e, Yields I P (h e)) : Yields I P (Call.tryExcept c h) := by
  intro w hw
  rw [wp_tryExcept]
  exact wp_mono (hc w hw) (fun _ _ h' => h') (fun e w' h' => hh e w' h') (fun _ h' => h')

theorem Yields.zoom {get : S → W} {put : W → S → S} {J : S → Prop} {c : Call ε W α}
    (hc : Yields I P c) (hget : ∀ s, J s → I (get s)) (hput : ∀ s w, J s → I w → J (put w s)) :
    Yields J P (Call.zoom get put c) := by
  intro s hs
  rw [wp_zoom]
  exact wp_mono (hc (get s) (hget s hs)) (fun _ w h => ⟨h.1, hput s w hs h.2⟩)
    (fun _ w h => hput s w hs h) (fun w h => hput s w hs h)

/-- What is known of a value that is returned, for a call that keeps `I`. -/
theorem Keeps.yields_of {c : Call ε W α} (hc : Keeps I c)
    (hr : ∀ w, I w → wp c (Post.onReturn fun a _ => P a) w) : Yields I P c :=
  fun w hw => wp_mono (wp_and (hr w hw) (hc w hw)) (fun _ _ h => h) (fun _ _ h => h.2)
    (fun _ h => h.2)

/-- A loop over a list whose passes hand on a value with `R`. -/
theorem Yields.forEach {R : σ → Prop} {body : σ → β → Call ε W (Pass σ σ)} {xs : List β}
    (hbody : ∀ s x, x ∈ xs → R s → Yields I (fun p => match p with
      | .again s' => R s'
      | .done s' => R s') (body s x)) {s : σ} (hs : R s) :
    Yields I R (Call.forEach body xs s) := by
  induction xs generalizing s with
  | nil => exact yields_pure hs
  | cons x xs ih =>
    refine (hbody s x List.mem_cons_self hs).bind ?_
    intro p hp
    cases p with
    | again s' => exact ih (fun s y hy => hbody s y (List.mem_cons_of_mem x hy)) hp
    | done s' => exact yields_pure hp

end DataBridge.Call
