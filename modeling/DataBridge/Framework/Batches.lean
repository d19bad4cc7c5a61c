import Mathlib.Algebra.GroupWithZero.Nat
import Mathlib.Tactic.Common
import DataBridge.Framework.Call

namespace DataBridge

namespace Call

variable {ε W α β γ : Type}

theorem bind_assoc (c : Call ε W α) (f : α → Call ε W β) (g : β → Call ε W γ) :
    (c >>= f) >>= g = c >>= fun a => f a >>= g := by
  funext w
  change bind (bind c f) g w = bind c (fun a => bind (f a) g) w
  unfold bind
  rcases c w with ⟨a | e | _, w'⟩ <;> rfl

theorem pure_bind (a : α) (f : α → Call ε W β) : (pure a : Call ε W α) >>= f = f a := rfl

theorem bind_congr {c : Call ε W α} {f g : α → Call ε W β} (h : ∀ a, f a = g a) :
    c >>= f = c >>= g := by rw [funext h]

end Call

namespace Batches

variable {ε W α σ : Type}

/-- At most `n` batches of `b` values, in the order of the list. -/
def upTo (b : Nat) : Nat → List α → List (List α)
  | 0, _ => []
  | _ + 1, [] => []
  | n + 1, x :: xs => (x :: xs).take b :: upTo b n ((x :: xs).drop b)

/-- A list in batches of `b` values; the last one may be shorter. -/
def ofList (b : Nat) (xs : List α) : List (List α) := upTo b xs.length xs

section split

variable {b : Nat} (hb : 0 < b)
include hb

theorem length_drop_lt {x : α} {xs : List α} : ((x :: xs).drop b).length < (x :: xs).length := by
  rw [List.length_drop, List.length_cons]
  omega

theorem flatten_upTo {n : Nat} {xs : List α} (hn : xs.length ≤ n) :
    (upTo b n xs).flatten = xs := by
  induction n generalizing xs with
  | zero => rw [upTo, List.eq_nil_of_length_eq_zero (Nat.le_zero.mp hn)]; rfl
  | succ n ih =>
    cases xs with
    | nil => rfl
    | cons x xs =>
      have hrest : ((x :: xs).drop b).length < (x :: xs).length := length_drop_lt hb
      rw [upTo, List.flatten_cons, ih (by omega), List.take_append_drop]

theorem ne_nil_of_mem_upTo {n : Nat} {xs batch : List α} (h : batch ∈ upTo b n xs) :
    batch ≠ [] := by
  induction n generalizing xs with
  | zero => cases h
  | succ n ih =>
    cases xs with
    | nil => cases h
    | cons x xs =>
      rcases List.mem_cons.mp h with rfl | hrest
      · obtain ⟨b, rfl⟩ := Nat.exists_eq_succ_of_ne_zero (Nat.ne_of_gt hb)
        exact List.cons_ne_nil _ _
      · exact ih hrest

end split

/-- Every batch but the last is full. -/
theorem length_of_mem_dropLast_upTo {b n : Nat} {xs batch : List α}
    (h : batch ∈ (upTo b n xs).dropLast) : batch.length = b := by
  induction n generalizing xs with
  | zero => cases h
  | succ n ih =>
    cases xs with
    | nil => cases h
    | cons x xs =>
      rw [upTo] at h
      by_cases hshort : (x :: xs).length ≤ b
      · rw [List.drop_of_length_le hshort] at h
        cases n <;> cases h
      · cases hrest : upTo b n ((x :: xs).drop b) with
        | nil =>
          rw [hrest] at h
          cases h
        | cons second others =>
          rw [hrest, List.dropLast_cons_cons] at h
          rcases List.mem_cons.mp h with rfl | hmem
          · rw [List.length_take]
            omega
          · rw [← hrest] at hmem
            exact ih hmem

/-- One pass of a loop that fetches at an offset, leaves when there is nothing more, and hands the
batch on; `step` is what it advances by. The body may leave the loop. -/
def fetchPass (fetch : Nat → Call ε W (List α)) (step : List α → Nat)
    (body : σ → List α → Call ε W (Pass σ σ)) (v : Nat × σ) : Call ε W (Pass (Nat × σ) σ) := do
  match ← fetch v.1 with
  | [] => pure (.done v.2)
  | batch => do
    match ← body v.2 batch with
    | .again s => pure (.again (v.1 + step batch, s))
    | .done s => pure (.done s)

def fetchLoop (fetch : Nat → Call ε W (List α)) (step : List α → Nat)
    (body : σ → List α → Call ε W (Pass σ σ)) (fuel offset : Nat) (s : σ) : Call ε W σ :=
  Call.loop (fetchPass fetch step body) fuel (offset, s)

section loops

variable {fetch : Nat → Call ε W (List α)} {step : List α → Nat} {xs : List α} {b : Nat}
  {body : σ → List α → Call ε W (Pass σ σ)}

/-- The offset moves behind the batch, or behind the end of the list. -/
def Advances (step : List α → Nat) (b : Nat) (xs : List α) : Prop :=
  ∀ offset, xs.drop (offset + step ((xs.drop offset).take b)) = (xs.drop offset).drop b

theorem advances_size : Advances (fun _ => b) b xs := fun offset => by rw [List.drop_drop]

theorem advances_length : Advances List.length b xs := by
  intro offset
  rw [List.length_take, ← List.drop_drop]
  by_cases h : b ≤ (xs.drop offset).length
  · rw [Nat.min_eq_left h]
  · rw [Nat.min_eq_right (Nat.le_of_not_le h), List.drop_length,
      List.drop_of_length_le (Nat.le_of_not_le h)]

theorem fetchLoop_end (hfetch : ∀ offset, fetch offset = pure ((xs.drop offset).take b))
    {fuel offset : Nat} {s : σ} (hend : (xs.drop offset).take b = []) :
    fetchLoop fetch step body (fuel + 1) offset s = pure s := by
  change fetchPass fetch step body (offset, s) >>= _ = _
  rw [fetchPass, hfetch, hend]
  rfl

theorem fetchLoop_batch (hfetch : ∀ offset, fetch offset = pure ((xs.drop offset).take b))
    {fuel offset : Nat} {s : σ} (hbatch : (xs.drop offset).take b ≠ []) :
    fetchLoop fetch step body (fuel + 1) offset s = (do
      match ← body s ((xs.drop offset).take b) with
      | .again s' =>
        fetchLoop fetch step body fuel (offset + step ((xs.drop offset).take b)) s'
      | .done s' => pure s') := by
  obtain ⟨x, batch, hcons⟩ := List.exists_cons_of_ne_nil hbatch
  change fetchPass fetch step body (offset, s) >>= _ = _
  rw [fetchPass, hfetch, hcons]
  change (body s (x :: batch) >>= _) >>= _ = _
  rw [Call.bind_assoc]
  apply Call.bind_congr
  intro p
  cases p with
  | again s' => rfl
  | done s' => rfl

/-- Over a fixed list such a loop hands its batches on, one after the other, and ends. -/
theorem fetchLoop_eq_forEach (hb : 0 < b)
    (hfetch : ∀ offset, fetch offset = pure ((xs.drop offset).take b))
    (hstep : Advances step b xs) {n fuel offset : Nat} {s : σ}
    (hn : (xs.drop offset).length ≤ n) (hfuel : (upTo b n (xs.drop offset)).length < fuel) :
    fetchLoop fetch step body fuel offset s =
      Call.forEach body (upTo b n (xs.drop offset)) s := by
  obtain ⟨fuel, rfl⟩ := Nat.exists_eq_succ_of_ne_zero (Nat.ne_of_gt (Nat.zero_lt_of_lt hfuel))
  induction n generalizing fuel offset s with
  | zero =>
    apply fetchLoop_end hfetch
    rw [List.eq_nil_of_length_eq_zero (Nat.le_zero.mp hn), List.take_nil]
  | succ n ih =>
    cases hrest : xs.drop offset with
    | nil =>
      apply fetchLoop_end hfetch
      rw [hrest, List.take_nil]
    | cons x rest =>
      have hbatch : (xs.drop offset).take b ≠ [] := by
        obtain ⟨b, rfl⟩ := Nat.exists_eq_succ_of_ne_zero (Nat.ne_of_gt hb)
        rw [hrest]
        exact List.cons_ne_nil _ _
      have hshorter : ((x :: rest).drop b).length < (x :: rest).length := length_drop_lt hb
      rw [hrest, upTo, List.length_cons] at hfuel
      rw [hrest] at hn
      rw [fetchLoop_batch hfetch hbatch, upTo, ← hrest]
      apply Call.bind_congr
      intro p
      cases p with
      | done s' => rfl
      | again s' =>
        obtain ⟨fuel, rfl⟩ := Nat.exists_eq_succ_of_ne_zero
          (Nat.ne_of_gt (Nat.zero_lt_of_lt (Nat.lt_of_succ_lt_succ hfuel)))
        have hnext := hstep offset
        rw [hrest] at hnext
        dsimp only
        rw [hrest, ← hnext]
        apply ih
        · rw [hnext]
          omega
        · rw [hnext]
          exact Nat.lt_of_succ_lt_succ hfuel

end loops

end Batches

end DataBridge
