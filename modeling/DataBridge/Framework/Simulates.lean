import DataBridge.Framework.Call

namespace DataBridge.Call

variable {ε W S D E α β σ : Type} {At : D → W → Prop} {d : D}

/-- Where the world stands for `d`, the call returns, and the value and what the world stands for
after it are in `R`. -/
def Simulates (At : D → W → Prop) (d : D) (R : α → D → Prop) (c : Call ε W α) : Prop :=
  ∀ w, At d w →
    wp c ⟨fun a w' => ∃ d', R a d' ∧ At d' w', fun _ _ => False, fun _ => False⟩ w

/-- The call returns, and the world stands for what it stood for. -/
abbrev Silent (At : D → W → Prop) (d : D) (c : Call ε W α) : Prop :=
  Simulates At d (fun _ d' => d' = d) c

/-- The call answers `r`, a value or an exception, and the world stands for what it stood for. -/
def Answers (At : D → W → Prop) (d : D) (r : Except ε α) (c : Call ε W α) : Prop :=
  ∀ w, At d w →
    wp c ⟨fun a w' => r = .ok a ∧ At d w', fun e w' => r = .error e ∧ At d w', fun _ => False⟩ w

variable {R : α → D → Prop} {Q : β → D → Prop}

theorem simulates_pure {a : α} (h : R a d) : Simulates At d R (pure a : Call ε W α) :=
  fun _ hw => ⟨d, h, hw⟩

theorem silent_read (f : W → α) : Silent At d (read f : Call ε W α) := fun _ hw => ⟨d, rfl, hw⟩

theorem Simulates.mono {R' : α → D → Prop} {c : Call ε W α} (hc : Simulates At d R c)
    (h : ∀ a d', R a d' → R' a d') : Simulates At d R' c := by
  intro w hw
  refine wp_mono (hc w hw) ?_ (fun _ _ hf => hf) (fun _ hf => hf)
  rintro a w' ⟨d', hr, hat⟩
  exact ⟨d', h a d' hr, hat⟩

theorem Simulates.bind {c : Call ε W α} {f : α → Call ε W β} (hc : Simulates At d R c)
    (hf : ∀ a d', R a d' → Simulates At d' Q (f a)) : Simulates At d Q (c >>= f) := by
  intro w hw
  refine wp_seq (hc w hw) ?_
  rintro a w' ⟨d', hr, hat⟩
  exact hf a d' hr w' hat

/-- Before the rest of a call, what changes nothing counts for nothing. -/
theorem Simulates.after {c : Call ε W α} {f : α → Call ε W β} (hc : Silent At d c)
    (hf : ∀ a, Simulates At d Q (f a)) : Simulates At d Q (c >>= f) := by
  refine Simulates.bind hc ?_
  rintro a d' rfl
  exact hf a

/-- What returns needs no handler. -/
theorem Simulates.tryExcept {c : Call ε W α} (h : ε → Call ε W α) (hc : Simulates At d R c) :
    Simulates At d R (Call.tryExcept c h) := by
  intro w hw
  rw [wp_tryExcept]
  exact wp_mono (hc w hw) (fun _ _ hr => hr) (fun _ _ hf => hf.elim) (fun _ hf => hf)

theorem Simulates.tryFinally {c : Call ε W α} {f : Call ε W Unit} (hc : Simulates At d R c)
    (hf : ∀ d', Silent At d' f) : Simulates At d R (Call.tryFinally c f) := by
  intro w hw
  rw [wp_tryFinally]
  refine wp_mono (hc w hw) ?_ (fun _ _ h => h.elim) (fun _ h => h)
  rintro a w' ⟨d', hr, hat⟩
  refine wp_mono (hf d' w' hat) ?_ (fun _ _ h => h) (fun _ h => h)
  rintro _ w'' ⟨d'', rfl, hat'⟩
  exact ⟨d'', hr, hat'⟩

/-- A call on a part of the state, for a larger state that stands for what its part stands for and
more. -/
theorem Simulates.zoom {get : S → W} {put : W → S → S} {At' : E → S → Prop} {e : E}
    (lift : D → E) {c : Call ε W α} (hc : Simulates At d R c)
    (hget : ∀ s, At' e s → At d (get s))
    (hput : ∀ s w d', At' e s → At d' w → At' (lift d') (put w s)) :
    Simulates At' e (fun a e' => ∃ d', R a d' ∧ e' = lift d') (Call.zoom get put c) := by
  intro s hs
  rw [wp_zoom]
  refine wp_mono (hc (get s) (hget s hs)) ?_ (fun _ _ h => h) (fun _ h => h)
  rintro a w ⟨d', hr, hat⟩
  exact ⟨lift d', ⟨d', hr, rfl⟩, hput s w d' hs hat⟩

/-- A loop whose passes keep `I` and lower `μ`. -/
theorem simulates_loop {body : β → Call ε W (Pass β α)} (I : β → D → Prop) (μ : β → Nat)
    (hbody : ∀ b d, I b d → Simulates At d (fun p d' => match p with
      | .again b' => I b' d' ∧ μ b' < μ b
      | .done a => R a d') (body b)) {fuel : Nat} {b : β} (hb : I b d) (hfuel : μ b < fuel) :
    Simulates At d R (Call.loop body fuel b) := by
  induction fuel generalizing b d with
  | zero => omega
  | succ fuel ih =>
    refine (hbody b d hb).bind ?_
    intro p d' hp
    cases p with
    | again b' => exact ih hp.1 (by omega)
    | done a => exact simulates_pure hp

/-- A loop over numbers: `I i` holds before the pass for `i`. -/
theorem simulates_forRange {body : Nat → Call ε W (Option α)} {R : Option α → D → Prop}
    (I : Nat → D → Prop) (stop : Nat)
    (hbody : ∀ i d, i < stop → I i d → Simulates At d (fun r d' => match r with
      | some a => R (some a) d'
      | none => I (i + 1) d') (body i))
    (hend : ∀ d, I stop d → R none d) {n i : Nat} (hn : i + n = stop) (h : I i d) :
    Simulates At d R (Call.forRange body n i) := by
  induction n generalizing i d with
  | zero =>
    obtain rfl : i = stop := by omega
    exact simulates_pure (hend d h)
  | succ n ih =>
    have hi : i < stop := by omega
    refine (hbody i d hi h).bind ?_
    intro r d' hr
    cases r with
    | some a => exact simulates_pure hr
    | none => exact ih (by omega) hr

/-- A loop over a list: `I xs s` holds when `xs` are still to come. -/
theorem simulates_forEach {body : σ → β → Call ε W (Pass σ σ)} {R : σ → D → Prop}
    (I : List β → σ → D → Prop)
    (hbody : ∀ x xs s d, I (x :: xs) s d → Simulates At d (fun p d' => match p with
      | .again s' => I xs s' d'
      | .done s' => R s' d') (body s x))
    (hend : ∀ s d, I [] s d → R s d) {xs : List β} {s : σ} (h : I xs s d) :
    Simulates At d R (Call.forEach body xs s) := by
  induction xs generalizing s d with
  | nil => exact simulates_pure (hend s d h)
  | cons x xs ih =>
    refine (hbody x xs s d h).bind ?_
    intro p d' hp
    cases p with
    | again s' => exact ih hp
    | done s' => exact simulates_pure hp

theorem Simulates.exists {c : Call ε W α} (hc : Simulates At d R c) {w : W} (hw : At d w) :
    ∃ a d' w', c w = (.returned a, w') ∧ R a d' ∧ At d' w' := by
  obtain ⟨a, w', hrun, d', hr, hat⟩ := exists_of_wp (hc w hw)
  exact ⟨a, d', w', hrun, hr, hat⟩

/-! ## Answers -/

theorem answers_ofExcept (r : Except ε α) : Answers At d r (ofExcept r : Call ε W α) := by
  intro w hw
  cases r with
  | ok a => exact ⟨rfl, hw⟩
  | error e => exact ⟨rfl, hw⟩

/-- An answer that is a value. -/
theorem Answers.simulates {c : Call ε W α} {a : α} (hc : Answers At d (.ok a) c) :
    Simulates At d (fun b d' => b = a ∧ d' = d) c := by
  intro w hw
  refine wp_mono (hc w hw) ?_ ?_ (fun _ h => h)
  · rintro b w' ⟨hb, hat⟩
    exact ⟨d, ⟨(Except.ok.inj hb).symm, rfl⟩, hat⟩
  · rintro e w' ⟨he, -⟩
    cases he

/-- What follows an answer, whichever it is. -/
theorem Answers.tryExcept {c : Call ε W α} {f : α → Call ε W β} {h : ε → Call ε W β}
    {r : Except ε α} (hc : Answers At d r c) (hok : ∀ a, r = .ok a → Simulates At d Q (f a))
    (herror : ∀ e, r = .error e → Simulates At d Q (h e)) :
    Simulates At d Q (Call.tryExcept (c >>= f) h) := by
  intro w hw
  rw [wp_tryExcept, wp_bind]
  refine wp_mono (hc w hw) ?_ ?_ (fun _ hf => hf)
  · rintro a w' ⟨ha, hat⟩
    exact wp_mono (hok a ha w' hat) (fun _ _ hr => hr) (fun _ _ hf => hf.elim) (fun _ hf => hf)
  · rintro e w' ⟨he, hat⟩
    exact herror e he w' hat

theorem Answers.zoom {get : S → W} {put : W → S → S} {At' : E → S → Prop} {e : E}
    {c : Call ε W α} {r : Except ε α} (hc : Answers At d r c)
    (hget : ∀ s, At' e s → At d (get s))
    (hput : ∀ s w, At' e s → At d w → At' e (put w s)) :
    Answers At' e r (Call.zoom get put c) := by
  intro s hs
  rw [wp_zoom]
  refine wp_mono (hc (get s) (hget s hs)) ?_ ?_ (fun _ h => h)
  · rintro a w ⟨ha, hat⟩
    exact ⟨ha, hput s w hs hat⟩
  · rintro exc w ⟨hexc, hat⟩
    exact ⟨hexc, hput s w hs hat⟩

/-! ## Failures -/

/-- Where the world stands for `d`, the call raises, and the world stands for `d'` after it. -/
def Fails (At : D → W → Prop) (d d' : D) (c : Call ε W α) : Prop :=
  ∀ w, At d w → wp c ⟨fun _ _ => False, fun _ w' => At d' w', fun _ => False⟩ w

theorem Fails.bind {d' : D} {c : Call ε W α} (hc : Fails At d d' c) (f : α → Call ε W β) :
    Fails At d d' (c >>= f) := by
  intro w hw
  rw [wp_bind]
  exact wp_mono (hc w hw) (fun _ _ h => h.elim) (fun _ _ h => h) (fun _ h => h)

/-- What fails ends as its handler does. -/
theorem Fails.tryExcept {d' : D} {c : Call ε W α} {h : ε → Call ε W α} (hc : Fails At d d' c)
    (hh : ∀ e, Simulates At d' R (h e)) : Simulates At d R (Call.tryExcept c h) := by
  intro w hw
  rw [wp_tryExcept]
  exact wp_mono (hc w hw) (fun _ _ h => h.elim) (fun e w' hat => hh e w' hat) (fun _ h => h)

theorem Fails.zoom {get : S → W} {put : W → S → S} {At' : E → S → Prop} {e e' : E} {d' : D}
    {c : Call ε W α} (hc : Fails At d d' c) (hget : ∀ s, At' e s → At d (get s))
    (hput : ∀ s w, At' e s → At d' w → At' e' (put w s)) :
    Fails At' e e' (Call.zoom get put c) := by
  intro s hs
  rw [wp_zoom]
  exact wp_mono (hc (get s) (hget s hs)) (fun _ _ h => h) (fun _ w hat => hput s w hs hat)
    (fun _ h => h)

end DataBridge.Call
