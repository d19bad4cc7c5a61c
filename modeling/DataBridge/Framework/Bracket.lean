import DataBridge.Framework.Keeps

namespace DataBridge

/-- A condition on the state in which a call ends, with a value or with an exception. -/
abbrev Post.atEnd {ε W α : Type} (I : W → Prop) : Post ε W α :=
  ⟨fun _ w => I w, fun _ w => I w, fun _ => True⟩

namespace Call

variable {ε W S α β σ ι : Type} {I : W → Prop}

/-- Where the call ends `I` holds again. -/
def Restores (I : W → Prop) (c : Call ε W α) : Prop := ∀ w, I w → wp c (Post.atEnd I) w

theorem Keeps.restores {c : Call ε W α} (h : Keeps I c) : Restores I c :=
  fun w hw => wp_mono (h w hw) (fun _ _ h' => h') (fun _ _ h' => h') (fun _ _ => trivial)

theorem Restores.bind {c : Call ε W α} {f : α → Call ε W β} (hc : Restores I c)
    (hf : ∀ a, Restores I (f a)) : Restores I (c >>= f) := by
  intro w hw
  rw [wp_bind]
  exact wp_mono (hc w hw) (fun a w' h => hf a w' h) (fun _ _ h => h) (fun _ _ => trivial)

theorem Restores.tryExcept {c : Call ε W α} {h : ε → Call ε W α} (hc : Restores I c)
    (hh : ∀ e, Restores I (h e)) : Restores I (Call.tryExcept c h) := by
  intro w hw
  rw [wp_tryExcept]
  exact wp_mono (hc w hw) (fun _ _ h' => h') (fun e w' h' => hh e w' h') (fun _ _ => trivial)

theorem Restores.zoom {get : S → W} {put : W → S → S} {J : S → Prop} {c : Call ε W α}
    (hc : Restores I c) (hget : ∀ s, J s → I (get s)) (hput : ∀ s w, J s → I w → J (put w s)) :
    Restores J (Call.zoom get put c) := by
  intro s hs
  rw [wp_zoom]
  exact wp_mono (hc (get s) (hget s hs)) (fun _ w h => hput s w hs h)
    (fun _ w h => hput s w hs h) (fun _ _ => trivial)

/-- Acquire, use and release. A failure to acquire leaves `I`; the use ends with whatever was
acquired still held; the release gives it back, also where it fails. -/
theorem Restores.bracket {J : ι → W → Prop} {acquire release : Call ε W Unit} {body : Call ε W α}
    (hacquire : ∀ w, I w →
      wp acquire ⟨fun _ w' => ∃ i, J i w', fun _ w' => I w', fun _ => True⟩ w)
    (hbody : ∀ i, Restores (J i) body)
    (hrelease : ∀ i w, J i w → wp release (Post.atEnd I) w) :
    Restores I (acquire >>= fun _ => Call.tryFinally body release) := by
  intro w hw
  rw [wp_bind]
  refine wp_mono (hacquire w hw) ?_ (fun _ _ h => h) (fun _ _ => trivial)
  intro _ w' h
  obtain ⟨i, hi⟩ := h
  have hinner : wp (Call.tryFinally body release) (Post.atEnd I) w' := by
    rw [wp_tryFinally]
    exact wp_mono (hbody i w' hi) (fun _ w'' h' => hrelease i w'' h')
      (fun _ w'' h' => hrelease i w'' h') (fun _ _ => trivial)
  exact hinner

end Call

end DataBridge
