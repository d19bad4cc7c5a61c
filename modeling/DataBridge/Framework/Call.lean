import Mathlib.Tactic.Common

namespace DataBridge

/-- How an awaited call ends: with a value, with an exception, or not within its fuel. -/
inductive Outcome (ε α : Type) where
  | returned (a : α)
  | raised (e : ε)
  | exhausted
  deriving DecidableEq, Repr

/-- An awaited call over a world. An exception keeps every effect made before it. -/
def Call (ε W α : Type) := W → Outcome ε α × W

/-- One pass through a loop body: start over with new loop variables, or leave with a value. -/
inductive Pass (β α : Type) where
  | again (b : β)
  | done (a : α)
  deriving DecidableEq, Repr

namespace Call

variable {ε W S α β σ : Type}

def ret (a : α) : Call ε W α := fun w => (.returned a, w)

def raise (e : ε) : Call ε W α := fun w => (.raised e, w)

def bind (c : Call ε W α) (f : α → Call ε W β) : Call ε W β := fun w =>
  match c w with
  | (.returned a, w') => f a w'
  | (.raised e, w') => (.raised e, w')
  | (.exhausted, w') => (.exhausted, w')

instance : Monad (Call ε W) where
  pure := ret
  bind := bind

def ofExcept : Except ε α → Call ε W α
  | .ok a => ret a
  | .error e => raise e

/-- `try: c except Exception as exc: h exc`. -/
def tryExcept (c : Call ε W α) (h : ε → Call ε W α) : Call ε W α := fun w =>
  match c w with
  | (.returned a, w') => (.returned a, w')
  | (.raised e, w') => h e w'
  | (.exhausted, w') => (.exhausted, w')

/-- `try: c finally: f`. An exception of `f` replaces the outcome of `c`. -/
def tryFinally (c : Call ε W α) (f : Call ε W Unit) : Call ε W α := fun w =>
  match c w with
  | (.exhausted, w') => (.exhausted, w')
  | (outcome, w') =>
    match f w' with
    | (.returned _, w'') => (outcome, w'')
    | (.raised e, w'') => (.raised e, w'')
    | (.exhausted, w'') => (.exhausted, w'')

def modify (f : W → W) : Call ε W Unit := fun w => (.returned (), f w)

def read (f : W → α) : Call ε W α := fun w => (.returned (f w), w)

/-- Run a call on the part of a larger state that `get` reads and `put` writes back. -/
def zoom (get : S → W) (put : W → S → S) (c : Call ε W α) : Call ε S α := fun s =>
  let r := c (get s)
  (r.1, put r.2 s)

/-- `while True: body`, for at most `fuel` passes. -/
def loop (body : β → Call ε W (Pass β α)) : Nat → β → Call ε W α
  | 0, _ => fun w => (.exhausted, w)
  | fuel + 1, b => do
    match ← body b with
    | .again b' => loop body fuel b'
    | .done a => pure a

/-- `for i in range(i, i + n): body`, left early with a value. -/
def forRange (body : Nat → Call ε W (Option α)) : Nat → Nat → Call ε W (Option α)
  | 0, _ => pure none
  | n + 1, i => do
    match ← body i with
    | some a => pure (some a)
    | none => forRange body n (i + 1)

/-- `for x in xs: body`, carrying local variables; `.done` is `break`. -/
def forEach (body : σ → β → Call ε W (Pass σ σ)) : List β → σ → Call ε W σ
  | [], s => pure s
  | x :: xs, s => do
    match ← body s x with
    | .again s' => forEach body xs s'
    | .done s' => pure s'

end Call

/-- What must hold where a call returns, where it raises, and where its fuel ends. -/
structure Post (ε W α : Type) where
  returned : α → W → Prop
  raised : ε → W → Prop
  exhausted : W → Prop

/-- A condition on a returned value alone. -/
abbrev Post.onReturn {ε W α : Type} (R : α → W → Prop) : Post ε W α :=
  ⟨R, fun _ _ => True, fun _ => True⟩

namespace Call

variable {ε W S α β σ : Type}

/-- The weakest precondition of a call. -/
def wp (c : Call ε W α) (Q : Post ε W α) (w : W) : Prop :=
  match c w with
  | (.returned a, w') => Q.returned a w'
  | (.raised e, w') => Q.raised e w'
  | (.exhausted, w') => Q.exhausted w'

theorem wp_of_returned {c : Call ε W α} {Q : Post ε W α} {w w' : W} {a : α}
    (h : wp c Q w) (hc : c w = (.returned a, w')) : Q.returned a w' := by
  rw [wp, hc] at h
  exact h

theorem wp_of_raised {c : Call ε W α} {Q : Post ε W α} {w w' : W} {e : ε}
    (h : wp c Q w) (hc : c w = (.raised e, w')) : Q.raised e w' := by
  rw [wp, hc] at h
  exact h

theorem wp_of_exhausted {c : Call ε W α} {Q : Post ε W α} {w w' : W}
    (h : wp c Q w) (hc : c w = (.exhausted, w')) : Q.exhausted w' := by
  rw [wp, hc] at h
  exact h

theorem exists_of_wp {c : Call ε W α} {R : α → W → Prop} {w : W}
    (h : wp c ⟨R, fun _ _ => False, fun _ => False⟩ w) :
    ∃ a w', c w = (.returned a, w') ∧ R a w' := by
  rw [wp] at h
  rcases hc : c w with ⟨a | e | _, w'⟩
  · rw [hc] at h
    exact ⟨a, w', rfl, h⟩
  · rw [hc] at h
    exact h.elim
  · rw [hc] at h
    exact h.elim

theorem wp_of_eq_returned {c : Call ε W α} {Q : Post ε W α} {w w' : W} {a : α}
    (hc : c w = (.returned a, w')) (h : Q.returned a w') : wp c Q w := by
  rw [wp, hc]
  exact h

@[simp] theorem wp_modify (f : W → W) (Q : Post ε W Unit) (w : W) :
    wp (modify f : Call ε W Unit) Q w ↔ Q.returned () (f w) := Iff.rfl

@[simp] theorem wp_bind (c : Call ε W α) (f : α → Call ε W β) (Q : Post ε W β) (w : W) :
    wp (c >>= f) Q w ↔ wp c ⟨fun a => wp (f a) Q, Q.raised, Q.exhausted⟩ w := by
  change wp (bind c f) Q w ↔ _
  unfold wp bind
  rcases c w with ⟨_ | _ | _, w'⟩ <;> rfl

@[simp] theorem wp_tryExcept (c : Call ε W α) (h : ε → Call ε W α) (Q : Post ε W α) (w : W) :
    wp (tryExcept c h) Q w ↔ wp c ⟨Q.returned, fun e => wp (h e) Q, Q.exhausted⟩ w := by
  unfold wp tryExcept
  rcases c w with ⟨_ | _ | _, w'⟩ <;> rfl

@[simp] theorem wp_tryFinally (c : Call ε W α) (f : Call ε W Unit) (Q : Post ε W α) (w : W) :
    wp (tryFinally c f) Q w ↔
      wp c ⟨fun a => wp f ⟨fun _ => Q.returned a, Q.raised, Q.exhausted⟩,
        fun e => wp f ⟨fun _ => Q.raised e, Q.raised, Q.exhausted⟩, Q.exhausted⟩ w := by
  unfold wp tryFinally
  rcases c w with ⟨_ | _ | _, w'⟩
  · rcases hf : f w' with ⟨_ | _ | _, w''⟩ <;> simp [hf]
  · rcases hf : f w' with ⟨_ | _ | _, w''⟩ <;> simp [hf]
  · rfl

/-- A step that only computes: the state stays, an exception ends the call. -/
theorem wp_bind_ofExcept {r : Except ε α} {f : α → Call ε W β} {Q : Post ε W β} {w : W}
    (hok : ∀ a, r = .ok a → wp (f a) Q w) (herror : ∀ e, r = .error e → Q.raised e w) :
    wp (ofExcept r >>= f) Q w := by
  rw [wp_bind]
  cases r with
  | ok a => exact hok a rfl
  | error e => exact herror e rfl

theorem wp_zoom (get : S → W) (put : W → S → S) (c : Call ε W α) (Q : Post ε S α) (s : S) :
    wp (zoom get put c) Q s ↔
      wp c ⟨fun a w => Q.returned a (put w s), fun e w => Q.raised e (put w s),
        fun w => Q.exhausted (put w s)⟩ (get s) := by
  unfold wp zoom
  rcases c (get s) with ⟨_ | _ | _, w'⟩ <;> rfl

/-- Consequence: a call that meets a stronger postcondition meets a weaker one. -/
theorem wp_mono {c : Call ε W α} {P Q : Post ε W α} {w : W} (h : wp c P w)
    (hr : ∀ a w', P.returned a w' → Q.returned a w')
    (he : ∀ e w', P.raised e w' → Q.raised e w')
    (hx : ∀ w', P.exhausted w' → Q.exhausted w') : wp c Q w := by
  rw [wp] at h ⊢
  rcases hc : c w with ⟨a | e | _, w'⟩ <;> rw [hc] at h
  · exact hr a w' h
  · exact he e w' h
  · exact hx w' h

theorem wp_onReturn {c : Call ε W α} {Q : Post ε W α} {w : W} (h : wp c Q w) :
    wp c (Post.onReturn Q.returned) w :=
  wp_mono h (fun _ _ h => h) (fun _ _ _ => trivial) (fun _ _ => trivial)

theorem bind_of_returned {c : Call ε W α} {f : α → Call ε W β} {w w' : W} {a : α}
    (h : c w = (.returned a, w')) : (c >>= f) w = f a w' := by
  change bind c f w = _
  rw [bind, h]

theorem bind_of_raised {c : Call ε W α} {f : α → Call ε W β} {w w' : W} {e : ε}
    (h : c w = (.raised e, w')) : (c >>= f) w = (.raised e, w') := by
  change bind c f w = _
  rw [bind, h]

/-- Sequencing: the first call leaves `R`, from which the rest meets the postcondition. -/
theorem wp_seq {c : Call ε W α} {f : α → Call ε W β} {Q : Post ε W β} {R : α → W → Prop} {w : W}
    (hc : wp c ⟨R, Q.raised, Q.exhausted⟩ w) (hf : ∀ a w', R a w' → wp (f a) Q w') :
    wp (c >>= f) Q w := by
  rw [wp_bind]
  exact wp_mono hc hf (fun _ _ h => h) (fun _ h => h)

/-- A postcondition that every outcome meets. -/
theorem wp_of_forall {c : Call ε W α} {Q : Post ε W α} {w : W} (hr : ∀ a w', Q.returned a w')
    (he : ∀ e w', Q.raised e w') (hx : ∀ w', Q.exhausted w') : wp c Q w := by
  rw [wp]
  rcases c w with ⟨a | e | _, w'⟩
  · exact hr a w'
  · exact he e w'
  · exact hx w'

/-- Whatever the first call does, only what follows its return counts. -/
theorem wp_bind_any {c : Call ε W α} {f : α → Call ε W β} {R : β → W → Prop} {w : W}
    (hf : ∀ a w', wp (f a) (Post.onReturn R) w') : wp (c >>= f) (Post.onReturn R) w := by
  rw [wp_bind]
  exact wp_of_forall hf (fun _ _ => trivial) (fun _ => trivial)

/-- A returned value is the one the call returns. -/
theorem wp_self (c : Call ε W α) (w : W) :
    wp c ⟨fun a w' => c w = (.returned a, w'), fun e w' => c w = (.raised e, w'),
      fun w' => c w = (.exhausted, w')⟩ w := by
  rw [wp]
  rcases hc : c w with ⟨_ | _ | _, w'⟩ <;> rfl

theorem wp_onReturn_self (c : Call ε W α) (w : W) :
    wp c (Post.onReturn fun a w' => c w = (.returned a, w')) w :=
  wp_onReturn (wp_self c w)

/-- Two postconditions of one call hold together. -/
theorem wp_and {c : Call ε W α} {P Q : Post ε W α} {w : W} (hp : wp c P w) (hq : wp c Q w) :
    wp c ⟨fun a w' => P.returned a w' ∧ Q.returned a w',
      fun e w' => P.raised e w' ∧ Q.raised e w', fun w' => P.exhausted w' ∧ Q.exhausted w'⟩ w := by
  rw [wp] at hp hq ⊢
  rcases hc : c w with ⟨_ | _ | _, w'⟩ <;> rw [hc] at hp hq <;> exact ⟨hp, hq⟩

/-- Loop rule with a variant: the body keeps `I` and lowers `μ`, so the fuel `μ` bounds is
enough. A loop whose exhaustion is accepted may leave the variant constant. -/
theorem wp_loop {body : β → Call ε W (Pass β α)} {Q : Post ε W α} (I : β → W → Prop)
    (μ : β → W → Nat)
    (hbody : ∀ b w, I b w → wp (body b)
      ⟨fun p w' => match p with
        | .again b' => I b' w' ∧ μ b' w' < μ b w
        | .done a => Q.returned a w', Q.raised, Q.exhausted⟩ w)
    (fuel : Nat) (b : β) (w : W) (hi : I b w) (hf : μ b w < fuel) :
    wp (loop body fuel b) Q w := by
  induction fuel generalizing b w with
  | zero => omega
  | succ fuel ih =>
    simp only [loop, wp_bind]
    refine wp_mono (hbody b w hi) ?_ (fun _ _ h => h) (fun _ h => h)
    intro p w' h
    cases p with
    | again b' => exact ih b' w' h.1 (by omega)
    | done a => exact h

/-- Loop rule without a variant, for a postcondition that accepts exhaustion. -/
theorem wp_loop_weak {body : β → Call ε W (Pass β α)} {Q : Post ε W α} (I : β → W → Prop)
    (hbody : ∀ b w, I b w → wp (body b)
      ⟨fun p w' => match p with
        | .again b' => I b' w'
        | .done a => Q.returned a w', Q.raised, Q.exhausted⟩ w)
    (hx : ∀ b w, I b w → Q.exhausted w)
    (fuel : Nat) (b : β) (w : W) (hi : I b w) : wp (loop body fuel b) Q w := by
  induction fuel generalizing b w with
  | zero => exact hx b w hi
  | succ fuel ih =>
    simp only [loop, wp_bind]
    refine wp_mono (hbody b w hi) ?_ (fun _ _ h => h) (fun _ h => h)
    intro p w' h
    cases p with
    | again b' => exact ih b' w' h
    | done a => exact h

/-- Rule for a counted loop: `I i` holds before pass `i`. -/
theorem wp_forRange {body : Nat → Call ε W (Option α)} {Q : Post ε W (Option α)}
    (I : Nat → W → Prop) (stop : Nat)
    (hbody : ∀ i w, i < stop → I i w → wp (body i)
      ⟨fun r w' => match r with
        | some a => Q.returned (some a) w'
        | none => I (i + 1) w', Q.raised, Q.exhausted⟩ w)
    (hend : ∀ w, I stop w → Q.returned none w)
    (n i : Nat) (w : W) (hn : i + n = stop) (hi : I i w) : wp (forRange body n i) Q w := by
  induction n generalizing i w with
  | zero =>
    have he : i = stop := by omega
    subst he
    exact hend w hi
  | succ n ih =>
    simp only [forRange, wp_bind]
    refine wp_mono (hbody i w (by omega) hi) ?_ (fun _ _ h => h) (fun _ h => h)
    intro r w' h
    cases r with
    | some a => exact h
    | none => exact ih (i + 1) w' (by omega) h

/-- Rule for a loop over a list: `I` relates the elements done so far to the local variables. -/
theorem wp_forEach {body : σ → β → Call ε W (Pass σ σ)} {Q : Post ε W σ}
    (I : List β → σ → W → Prop) (all : List β)
    (hbody : ∀ pre x post s w, all = pre ++ x :: post → I pre s w → wp (body s x)
      ⟨fun p w' => match p with
        | .again s' => I (pre ++ [x]) s' w'
        | .done s' => Q.returned s' w', Q.raised, Q.exhausted⟩ w)
    (hend : ∀ s w, I all s w → Q.returned s w)
    (pre xs : List β) (s : σ) (w : W) (hall : all = pre ++ xs) (hi : I pre s w) :
    wp (forEach body xs s) Q w := by
  induction xs generalizing pre s w with
  | nil =>
    have he : pre = all := by simpa using hall.symm
    subst he
    exact hend s w hi
  | cons x xs ih =>
    simp only [forEach, wp_bind]
    refine wp_mono (hbody pre x xs s w hall hi) ?_ (fun _ _ h => h) (fun _ h => h)
    intro p w' h
    cases p with
    | again s' => exact ih (pre ++ [x]) s' w' (by simp [hall]) h
    | done s' => exact h

/-- A loop over a list that has gone through these elements without leaving. -/
def Passed (body : σ → β → Call ε W (Pass σ σ)) : List β → σ → W → σ → W → Prop
  | [], s, w, s', w' => s' = s ∧ w' = w
  | x :: xs, s, w, s', w' => ∃ s₁ w₁, body s x w = (.returned (.again s₁), w₁) ∧
      Passed body xs s₁ w₁ s' w'

theorem Passed.snoc {body : σ → β → Call ε W (Pass σ σ)} {xs : List β} {x : β} {s s' s'' : σ}
    {w w' w'' : W} (h : Passed body xs s w s' w')
    (hx : body s' x w' = (.returned (.again s''), w'')) : Passed body (xs ++ [x]) s w s'' w'' := by
  induction xs generalizing s w with
  | nil =>
    obtain ⟨hs, hw⟩ := h
    subst hs hw
    exact ⟨s'', w'', hx, rfl, rfl⟩
  | cons y ys ih =>
    obtain ⟨s₁, w₁, hy, hrest⟩ := h
    exact ⟨s₁, w₁, hy, ih hrest⟩

/-- A loop that has passed `xs` goes on with the rest of its list. -/
theorem Passed.forEach_append {body : σ → β → Call ε W (Pass σ σ)} {xs : List β} {s s' : σ}
    {w w' : W} (h : Passed body xs s w s' w') (ys : List β) :
    forEach body (xs ++ ys) s w = forEach body ys s' w' := by
  induction xs generalizing s w with
  | nil =>
    obtain ⟨hs, hw⟩ := h
    subst hs hw
    rfl
  | cons x xs ih =>
    obtain ⟨s₁, w₁, hx, hrest⟩ := h
    rw [← ih hrest]
    change bind _ _ w = _
    rw [bind, hx]
    rfl

/-- A loop passes the same elements in one way only. -/
theorem Passed.unique {body : σ → β → Call ε W (Pass σ σ)} {xs : List β} {s s₁ s₂ : σ}
    {w w₁ w₂ : W} (h₁ : Passed body xs s w s₁ w₁) (h₂ : Passed body xs s w s₂ w₂) :
    s₁ = s₂ ∧ w₁ = w₂ := by
  have heq : (Outcome.returned s₁, w₁) = ((.returned s₂, w₂) : Outcome ε σ × W) :=
    (h₁.forEach_append []).symm.trans (h₂.forEach_append [])
  simpa using heq

/-- Rule for a loop over a list whose invariant may speak of how the loop got there. -/
theorem wp_forEach_passed {body : σ → β → Call ε W (Pass σ σ)} {Q : Post ε W σ}
    (I : List β → σ → W → Prop) (all : List β) (s₀ : σ) (w₀ : W)
    (hbody : ∀ pre x post s w, all = pre ++ x :: post → Passed body pre s₀ w₀ s w → I pre s w →
      wp (body s x) ⟨fun p w' => match p with
        | .again s' => I (pre ++ [x]) s' w'
        | .done s' => Q.returned s' w', Q.raised, Q.exhausted⟩ w)
    (hend : ∀ s w, Passed body all s₀ w₀ s w → I all s w → Q.returned s w) (hi : I [] s₀ w₀) :
    wp (forEach body all s₀) Q w₀ := by
  refine wp_forEach (fun pre s w => Passed body pre s₀ w₀ s w ∧ I pre s w) all ?_
    (fun s w h => hend s w h.1 h.2) [] all s₀ w₀ rfl ⟨⟨rfl, rfl⟩, hi⟩
  intro pre x post s w hall h
  have hself := wp_and (wp_self (body s x) w) (hbody pre x post s w hall h.1 h.2)
  refine wp_mono hself ?_ (fun _ _ h => h.2) (fun _ h => h.2)
  intro p w' hp
  cases p with
  | again s' => exact ⟨h.1.snoc hp.1, hp.2⟩
  | done s' => exact hp.2

end Call

end DataBridge
