import DataBridge.Framework.Call

namespace DataBridge.Call

variable {ε W V S T α β σ : Type} {R : W → V → Prop}

/-- From related worlds the two calls end alike, in related worlds. -/
def Respects (R : W → V → Prop) (c : Call ε W α) (c' : Call ε V α) : Prop :=
  ∀ w v, R w v → (c w).1 = (c' v).1 ∧ R (c w).2 (c' v).2

theorem respects_pure (a : α) : Respects R (pure a : Call ε W α) (pure a : Call ε V α) :=
  fun _ _ h => ⟨rfl, h⟩

theorem respects_raise (e : ε) : Respects R (raise e : Call ε W α) (raise e : Call ε V α) :=
  fun _ _ h => ⟨rfl, h⟩

theorem respects_ofExcept (r : Except ε α) :
    Respects R (ofExcept r : Call ε W α) (ofExcept r : Call ε V α) := by
  cases r with
  | ok a => exact respects_pure a
  | error e => exact respects_raise e

theorem respects_modify {f : W → W} {g : V → V} (h : ∀ w v, R w v → R (f w) (g v)) :
    Respects R (modify f : Call ε W Unit) (modify g : Call ε V Unit) :=
  fun w v hr => ⟨rfl, h w v hr⟩

theorem respects_read {f : W → α} {g : V → α} (h : ∀ w v, R w v → f w = g v) :
    Respects R (read f : Call ε W α) (read g : Call ε V α) :=
  fun w v hr => ⟨congrArg Outcome.returned (h w v hr), hr⟩

/-- A call on a part of a larger state, seen from that part. -/
theorem respects_zoom {get : S → W} {put : W → S → S} (h : ∀ s w, get (put w s) = w)
    (c : Call ε W α) : Respects (get · = ·) (Call.zoom get put c) c := by
  intro s w hs
  subst hs
  exact ⟨rfl, h s _⟩

/-- The common end of the two calls. -/
theorem Respects.ends {c : Call ε W α} {c' : Call ε V α} (hc : Respects R c c') {w : W} {v : V}
    (h : R w v) : ∃ o w' v', c w = (o, w') ∧ c' v = (o, v') ∧ R w' v' := by
  obtain ⟨ho, hr⟩ := hc w v h
  exact ⟨(c w).1, (c w).2, (c' v).2, rfl, Prod.ext ho.symm rfl, hr⟩

theorem Respects.bind {c : Call ε W α} {c' : Call ε V α} {f : α → Call ε W β} {f' : α → Call ε V β}
    (hc : Respects R c c') (hf : ∀ a, Respects R (f a) (f' a)) : Respects R (c >>= f) (c' >>= f') := by
  intro w v h
  obtain ⟨o, w', v', hw, hv, hr⟩ := hc.ends h
  change (Call.bind c f w).1 = (Call.bind c' f' v).1 ∧ R (Call.bind c f w).2 (Call.bind c' f' v).2
  rw [Call.bind, Call.bind, hw, hv]
  cases o with
  | returned a => exact hf a w' v' hr
  | raised e => exact ⟨rfl, hr⟩
  | exhausted => exact ⟨rfl, hr⟩

theorem Respects.tryExcept {c : Call ε W α} {c' : Call ε V α} {h : ε → Call ε W α}
    {h' : ε → Call ε V α} (hc : Respects R c c') (hh : ∀ e, Respects R (h e) (h' e)) :
    Respects R (tryExcept c h) (tryExcept c' h') := by
  intro w v hwv
  obtain ⟨o, w', v', hw, hv, hr⟩ := hc.ends hwv
  rw [Call.tryExcept, Call.tryExcept, hw, hv]
  cases o with
  | returned a => exact ⟨rfl, hr⟩
  | raised e => exact hh e w' v' hr
  | exhausted => exact ⟨rfl, hr⟩

theorem Respects.tryFinally {c : Call ε W α} {c' : Call ε V α} {f : Call ε W Unit}
    {f' : Call ε V Unit} (hc : Respects R c c') (hf : Respects R f f') :
    Respects R (tryFinally c f) (tryFinally c' f') := by
  intro w v hwv
  obtain ⟨o, w', v', hw, hv, hr⟩ := hc.ends hwv
  obtain ⟨o', w'', v'', hw', hv', hr'⟩ := hf.ends hr
  rw [Call.tryFinally, Call.tryFinally, hw, hv]
  cases o with
  | exhausted => exact ⟨rfl, hr⟩
  | returned a =>
    dsimp only
    rw [hw', hv']
    cases o' <;> exact ⟨rfl, hr'⟩
  | raised e =>
    dsimp only
    rw [hw', hv']
    cases o' <;> exact ⟨rfl, hr'⟩

/-- Calls on parts of two larger states. -/
theorem Respects.zoom {P : S → T → Prop} {c : Call ε W α} {c' : Call ε V α} {get : S → W}
    {put : W → S → S} {get' : T → V} {put' : V → T → T} (hc : Respects R c c')
    (hget : ∀ s t, P s t → R (get s) (get' t))
    (hput : ∀ s t w v, P s t → R w v → P (put w s) (put' v t)) :
    Respects P (Call.zoom get put c) (Call.zoom get' put' c') := by
  intro s t h
  obtain ⟨ho, hr⟩ := hc (get s) (get' t) (hget s t h)
  exact ⟨ho, hput s t _ _ h hr⟩

theorem Respects.loop {body : β → Call ε W (Pass β α)} {body' : β → Call ε V (Pass β α)}
    (hbody : ∀ b, Respects R (body b) (body' b)) (fuel : Nat) (b : β) :
    Respects R (loop body fuel b) (loop body' fuel b) := by
  induction fuel generalizing b with
  | zero => exact fun _ _ h => ⟨rfl, h⟩
  | succ fuel ih =>
    refine (hbody b).bind ?_
    intro p
    cases p with
    | again b' => exact ih b'
    | done a => exact respects_pure a

theorem Respects.forRange {body : Nat → Call ε W (Option α)} {body' : Nat → Call ε V (Option α)}
    (hbody : ∀ i, Respects R (body i) (body' i)) (n i : Nat) :
    Respects R (forRange body n i) (forRange body' n i) := by
  induction n generalizing i with
  | zero => exact respects_pure none
  | succ n ih =>
    refine (hbody i).bind ?_
    intro r
    cases r with
    | none => exact ih (i + 1)
    | some a => exact respects_pure (some a)

theorem Respects.forEach_mem {body : σ → β → Call ε W (Pass σ σ)}
    {body' : σ → β → Call ε V (Pass σ σ)} {xs : List β}
    (hbody : ∀ x ∈ xs, ∀ s, Respects R (body s x) (body' s x)) (s : σ) :
    Respects R (forEach body xs s) (forEach body' xs s) := by
  induction xs generalizing s with
  | nil => exact respects_pure s
  | cons x xs ih =>
    refine (hbody x List.mem_cons_self s).bind ?_
    intro p
    cases p with
    | again s' => exact ih (fun y hy => hbody y (List.mem_cons_of_mem x hy)) s'
    | done s' => exact respects_pure s'

end DataBridge.Call
