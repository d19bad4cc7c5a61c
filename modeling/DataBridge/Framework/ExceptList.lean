import Mathlib.Data.List.Forall2
import Mathlib.Tactic.Common

namespace DataBridge.ExceptList

variable {ε α β : Type}

theorem bind_ok_iff {x : Except ε α} {f : α → Except ε β} {b : β} :
    (x >>= f) = .ok b ↔ ∃ a, x = .ok a ∧ f a = .ok b := by
  cases x with
  | error e =>
    constructor
    · intro h; cases h
    · rintro ⟨a, h, -⟩; cases h
  | ok a =>
    constructor
    · intro h; exact ⟨a, rfl, h⟩
    · rintro ⟨a', h, hf⟩; cases h; exact hf

theorem bind_error_iff {x : Except ε α} {f : α → Except ε β} {e : ε} :
    (x >>= f) = .error e ↔ x = .error e ∨ ∃ a, x = .ok a ∧ f a = .error e := by
  cases x with
  | ok a => simp [bind, Except.bind]
  | error e' => simp [bind, Except.bind]

theorem map_ok_iff {x : Except ε α} {f : α → β} {b : β} :
    x.map f = .ok b ↔ ∃ a, x = .ok a ∧ f a = b := by
  cases x with
  | error e => simp [Except.map]
  | ok a => simp [Except.map]

theorem pure_ok_iff {a b : α} : (pure a : Except ε α) = .ok b ↔ a = b := by
  constructor
  · intro h; cases h; rfl
  · rintro rfl; rfl

/-- A successful `mapM` maps element by element. -/
theorem mapM_ok_iff (f : α → Except ε β) (xs : List α) (ys : List β) :
    xs.mapM f = .ok ys ↔ List.Forall₂ (fun x y => f x = .ok y) xs ys := by
  induction xs generalizing ys with
  | nil =>
    rw [List.mapM_nil, pure_ok_iff, List.forall₂_nil_left_iff]
    exact eq_comm
  | cons x xs ih =>
    rw [List.mapM_cons, bind_ok_iff, List.forall₂_cons_left_iff]
    constructor
    · intro hparts
      obtain ⟨y, hy, h⟩ := hparts
      obtain ⟨rest, hrest, he⟩ := bind_ok_iff.mp h
      exact ⟨y, rest, hy, (ih rest).mp hrest, (pure_ok_iff.mp he).symm⟩
    · intro hfound
      obtain ⟨y, rest, hy, hrest, rfl⟩ := hfound
      exact ⟨y, hy, bind_ok_iff.mpr ⟨rest, (ih rest).mpr hrest, pure_ok_iff.mpr rfl⟩⟩

/-- The same of a map whose steps are optional. -/
theorem mapM_some_iff (f : α → Option β) (xs : List α) (ys : List β) :
    xs.mapM f = some ys ↔ List.Forall₂ (fun x y => f x = some y) xs ys := by
  induction xs generalizing ys with
  | nil =>
    rw [List.mapM_nil, List.forall₂_nil_left_iff, Option.pure_def, Option.some.injEq]
    exact eq_comm
  | cons x xs ih =>
    rw [List.mapM_cons, Option.bind_eq_bind, Option.bind_eq_some_iff, List.forall₂_cons_left_iff]
    constructor
    · intro hparts
      obtain ⟨y, hy, h⟩ := hparts
      obtain ⟨rest, hrest, he⟩ := Option.bind_eq_some_iff.mp h
      exact ⟨y, rest, hy, (ih rest).mp hrest, (Option.some.inj he).symm⟩
    · intro hfound
      obtain ⟨y, rest, hy, hrest, rfl⟩ := hfound
      exact ⟨y, hy, Option.bind_eq_some_iff.mpr ⟨rest, (ih rest).mpr hrest, rfl⟩⟩

theorem mapM_length {f : α → Except ε β} {xs : List α} {ys : List β} (h : xs.mapM f = .ok ys) :
    xs.length = ys.length := ((mapM_ok_iff f xs ys).mp h).length_eq

/-- Every element of the second list is related to one of the first. -/
theorem exists_left_of_forall₂ {R : α → β → Prop} {xs : List α} {ys : List β}
    (h : List.Forall₂ R xs ys) {y : β} (hy : y ∈ ys) : ∃ x ∈ xs, R x y := by
  induction h with
  | nil => simp at hy
  | @cons x y' xs ys hxy hrest ih =>
    rcases List.mem_cons.mp hy with heq | hmem
    · exact ⟨x, by simp, heq ▸ hxy⟩
    · obtain ⟨x', hx', hr⟩ := ih hmem
      exact ⟨x', by simp [hx'], hr⟩

theorem exists_right_of_forall₂ {R : α → β → Prop} {xs : List α} {ys : List β}
    (h : List.Forall₂ R xs ys) {x : α} (hx : x ∈ xs) : ∃ y ∈ ys, R x y :=
  exists_left_of_forall₂ h.flip hx

/-- Every element of the output comes from an element of the input. -/
theorem mapM_source {f : α → Except ε β} {xs : List α} {ys : List β} (h : xs.mapM f = .ok ys)
    {y : β} (hy : y ∈ ys) : ∃ x ∈ xs, f x = .ok y :=
  exists_left_of_forall₂ ((mapM_ok_iff f xs ys).mp h) hy

/-- A window of the input maps to the same window of the output. -/
theorem mapM_window {f : α → Except ε β} {xs : List α} {ys : List β} (h : xs.mapM f = .ok ys)
    (offset limit : Nat) :
    ((xs.drop offset).take limit).mapM f = .ok ((ys.drop offset).take limit) := by
  rw [mapM_ok_iff] at h ⊢
  exact List.forall₂_take limit (List.forall₂_drop offset h)

theorem mapM_congr {f g : α → Except ε β} {xs : List α} (h : ∀ x ∈ xs, f x = g x) :
    xs.mapM f = xs.mapM g := by
  induction xs with
  | nil => rfl
  | cons x xs ih =>
    rw [List.mapM_cons, List.mapM_cons, h x (by simp), ih fun y hy => h y (by simp [hy])]

theorem mapM_map {γ : Type} (f : β → Except ε γ) (g : α → β) (xs : List α) :
    (xs.map g).mapM f = xs.mapM fun x => f (g x) := by
  induction xs with
  | nil => rfl
  | cons x xs ih => rw [List.map_cons, List.mapM_cons, List.mapM_cons, ih]

/-- What a successful `mapM` makes of a value is read off the input. -/
theorem mapM_map_eq {γ : Type} {f : α → Except ε β} {g : α → γ} {g' : β → γ}
    (hg : ∀ x y, f x = .ok y → g' y = g x) {xs : List α} {ys : List β}
    (h : xs.mapM f = .ok ys) : ys.map g' = xs.map g := by
  rw [mapM_ok_iff] at h
  induction h with
  | nil => rfl
  | cons hxy _ ih => rw [List.map_cons, List.map_cons, hg _ _ hxy, ih]

theorem mapM_perm {f : α → Except ε β} {xs xs' : List α} {ys ys' : List β} (hperm : xs.Perm xs')
    (h : xs.mapM f = .ok ys) (h' : xs'.mapM f = .ok ys') : ys.Perm ys' := by
  have hfilter : ∀ {zs : List α} {ws : List β}, zs.mapM f = .ok ws →
      ws = zs.filterMap fun z => (f z).toOption := by
    intro zs ws hzs
    rw [mapM_ok_iff] at hzs
    induction hzs with
    | nil => rfl
    | cons hxy _ ih =>
      rw [List.filterMap_cons_some (by rw [hxy]; rfl), ← ih]
  rw [hfilter h, hfilter h']
  exact hperm.filterMap _

/-- A `mapM` succeeds when every element does. -/
theorem mapM_exists {f : α → Except ε β} {xs : List α} (h : ∀ x ∈ xs, ∃ y, f x = .ok y) :
    ∃ ys, xs.mapM f = .ok ys := by
  induction xs with
  | nil => exact ⟨[], rfl⟩
  | cons x xs ih =>
    obtain ⟨y, hy⟩ := h x (by simp)
    obtain ⟨ys, hys⟩ := ih fun z hz => h z (by simp [hz])
    refine ⟨y :: ys, ?_⟩
    rw [List.mapM_cons, hy, hys]
    rfl

/-- A map that succeeds has succeeded on every element. -/
theorem mapM_ok_mem {f : α → Except ε β} {xs : List α} {ys : List β} (h : xs.mapM f = .ok ys)
    {x : α} (hx : x ∈ xs) : ∃ y, f x = .ok y := by
  obtain ⟨y, -, hy⟩ := exists_right_of_forall₂ ((mapM_ok_iff f xs ys).mp h) hx
  exact ⟨y, hy⟩

/-- A map succeeds with related elements when every element has such an image. -/
theorem mapM_forall₂_iff {f : α → Except ε β} {R : α → β → Prop} {xs : List α} :
    (∃ ys, xs.mapM f = .ok ys ∧ List.Forall₂ R xs ys) ↔ ∀ x ∈ xs, ∃ y, f x = .ok y ∧ R x y := by
  simp only [mapM_ok_iff]
  induction xs with
  | nil => simp
  | cons x xs ih =>
    rw [List.forall_mem_cons, ← ih]
    constructor
    · intro h
      obtain ⟨ys, hok, hrel⟩ := h
      obtain ⟨y, rest, hy, hrest, rfl⟩ := List.forall₂_cons_left_iff.mp hok
      rw [List.forall₂_cons] at hrel
      exact ⟨⟨y, hy, hrel.1⟩, rest, hrest, hrel.2⟩
    · intro h
      obtain ⟨⟨y, hy, hrel⟩, rest, hrest, hrels⟩ := h
      exact ⟨y :: rest, .cons hy hrest, .cons hrel hrels⟩

theorem foldlM_fixed {f : β → α → Except ε β} {xs : List α} {b : β}
    (h : ∀ x ∈ xs, f b x = .ok b) : xs.foldlM f b = .ok b := by
  induction xs with
  | nil => rfl
  | cons x xs ih =>
    rw [List.foldlM_cons, h x (by simp)]
    exact ih fun y hy => h y (by simp [hy])

/-- A fold that succeeds has succeeded on every element. -/
theorem foldlM_ok_mem {f : β → α → Except ε β} {xs : List α} {init r : β}
    (h : xs.foldlM f init = .ok r) {x : α} (hx : x ∈ xs) : ∃ acc acc', f acc x = .ok acc' := by
  induction xs generalizing init with
  | nil => simp at hx
  | cons y ys ih =>
    rw [List.foldlM_cons] at h
    obtain ⟨next, hnext, hrest⟩ := bind_ok_iff.mp h
    rcases List.mem_cons.mp hx with heq | hmem
    · exact ⟨init, next, heq ▸ hnext⟩
    · exact ih hrest hmem

/-- A fold whose steps append to the accumulator appends what each element gives. -/
theorem foldlM_append {f : List β → α → Except ε (List β)} {g : α → List β} {xs : List α}
    (h : ∀ x ∈ xs, ∀ acc, f acc x = .ok (acc ++ g x)) (acc : List β) :
    xs.foldlM f acc = .ok (acc ++ xs.flatMap g) := by
  induction xs generalizing acc with
  | nil => simp [pure, Except.pure]
  | cons x xs ih =>
    have hrest := ih (fun y hy => h y (by simp [hy])) (acc ++ g x)
    rw [List.foldlM_cons, h x (by simp)]
    rw [List.flatMap_cons, ← List.append_assoc]
    exact hrest

/-- A fold over an element that fails from any accumulator fails. -/
theorem foldlM_error_of_mem {f : β → α → Except ε β} {xs : List α} {x : α} (hx : x ∈ xs)
    (h : ∀ acc, ∃ e, f acc x = .error e) (init : β) : ∃ e, xs.foldlM f init = .error e := by
  cases hfold : xs.foldlM f init with
  | error e => exact ⟨e, rfl⟩
  | ok r =>
    obtain ⟨acc, acc', hok⟩ := foldlM_ok_mem hfold hx
    obtain ⟨e, herror⟩ := h acc
    rw [hok] at herror
    cases herror

/-- A map that fails has failed on an element. -/
theorem mapM_error {f : α → Except ε β} {xs : List α} {e : ε} (h : xs.mapM f = .error e) :
    ∃ x ∈ xs, f x = .error e := by
  induction xs with
  | nil => cases h
  | cons x xs ih =>
    rw [List.mapM_cons] at h
    rcases bind_error_iff.mp h with hx | ⟨y, -, hrest⟩
    · exact ⟨x, List.mem_cons_self, hx⟩
    · rcases bind_error_iff.mp hrest with hxs | ⟨ys, -, hpure⟩
      · obtain ⟨z, hz, hfz⟩ := ih hxs
        exact ⟨z, List.mem_cons_of_mem x hz, hfz⟩
      · cases hpure

/-- A fold that fails has failed on an element. -/
theorem foldlM_error {f : β → α → Except ε β} {xs : List α} {init : β} {e : ε}
    (h : xs.foldlM f init = .error e) : ∃ x ∈ xs, ∃ acc, f acc x = .error e := by
  induction xs generalizing init with
  | nil => cases h
  | cons x xs ih =>
    rw [List.foldlM_cons] at h
    rcases bind_error_iff.mp h with hx | ⟨next, -, hrest⟩
    · exact ⟨x, List.mem_cons_self, init, hx⟩
    · obtain ⟨y, hy, acc, hfy⟩ := ih hrest
      exact ⟨y, List.mem_cons_of_mem x hy, acc, hfy⟩

/-- A fold whose every step succeeds and keeps what holds of the elements done so far. -/
theorem foldlM_ok {σ : Type} {f : σ → α → Except ε σ} (I : List α → σ → Prop) (all : List α)
    (hstep : ∀ pre x post s, all = pre ++ x :: post → I pre s →
      ∃ s', f s x = .ok s' ∧ I (pre ++ [x]) s') {pre xs : List α} {s : σ} (hall : all = pre ++ xs)
    (hs : I pre s) : ∃ s', xs.foldlM f s = .ok s' ∧ I all s' := by
  induction xs generalizing pre s with
  | nil =>
    rw [List.append_nil] at hall
    subst hall
    exact ⟨s, rfl, hs⟩
  | cons x xs ih =>
    obtain ⟨s₁, hrun, hs₁⟩ := hstep pre x xs s hall hs
    have hrest : all = (pre ++ [x]) ++ xs := by simpa using hall
    obtain ⟨s', hfold, hs'⟩ := ih hrest hs₁
    refine ⟨s', ?_, hs'⟩
    rw [List.foldlM_cons, hrun]
    exact hfold

end DataBridge.ExceptList
