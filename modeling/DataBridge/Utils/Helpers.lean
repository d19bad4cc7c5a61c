import Mathlib.Algebra.Order.Field.Basic
import Mathlib.Data.Rat.Floor
import Mathlib.Tactic.Linarith
import Mathlib.Tactic.NormNum

namespace DataBridge

/-- `round(q)`: to the nearest integer, a half to the even one. -/
def roundHalfEven (q : ℚ) : Int :=
  let low := ⌊q⌋
  if q - low < 1 / 2 then low
  else if q - low > 1 / 2 then low + 1
  else if low % 2 = 0 then low
  else low + 1

/-- Seconds remaining, in exact arithmetic; 0 when complete or indeterminate. -/
def estimateTimeRemaining (processedRows totalRows : Nat) (elapsedSeconds : ℚ) : Int :=
  if processedRows = 0 ∨ totalRows = 0 ∨ elapsedSeconds ≤ 0 then 0
  else
    let rate := (processedRows : ℚ) / elapsedSeconds
    let remainingRows := totalRows - processedRows
    if rate > 0 then ⌈(remainingRows : ℚ) / rate⌉ else 0

/-- Rows per second, in exact arithmetic. -/
def calculateSpeed (processedRows : Nat) (elapsedSeconds : ℚ) : Int :=
  if elapsedSeconds ≤ 0 then 0 else roundHalfEven (processedRows / elapsedSeconds)

/-- The percentage from 0 to 100, in exact arithmetic. -/
def calculateProgress (processed total : Nat) : Int :=
  if total = 0 then 0 else min 100 (roundHalfEven ((processed : ℚ) / total * 100))

/-- Rounding goes down up to the half, or up from it. -/
theorem roundHalfEven_cases (q : ℚ) :
    roundHalfEven q = ⌊q⌋ ∧ q ≤ ⌊q⌋ + 1 / 2 ∨ roundHalfEven q = ⌊q⌋ + 1 ∧ ⌊q⌋ + 1 / 2 ≤ q := by
  unfold roundHalfEven
  dsimp only
  split_ifs with hlow hhigh heven
  · exact Or.inl ⟨rfl, by linarith⟩
  · exact Or.inr ⟨rfl, by linarith⟩
  · exact Or.inl ⟨rfl, by linarith⟩
  · exact Or.inr ⟨rfl, by linarith⟩

theorem floor_le_roundHalfEven (q : ℚ) : ⌊q⌋ ≤ roundHalfEven q := by
  rcases roundHalfEven_cases q with ⟨h, -⟩ | ⟨h, -⟩
  · exact h.ge
  · omega

theorem roundHalfEven_le_floor_add_one (q : ℚ) : roundHalfEven q ≤ ⌊q⌋ + 1 := by
  rcases roundHalfEven_cases q with ⟨h, -⟩ | ⟨h, -⟩
  · omega
  · exact h.le

theorem roundHalfEven_mono {q r : ℚ} (h : q ≤ r) : roundHalfEven q ≤ roundHalfEven r := by
  rcases (Int.floor_mono h).lt_or_eq with hlt | heq
  · have hq := roundHalfEven_le_floor_add_one q
    have hr := floor_le_roundHalfEven r
    omega
  · unfold roundHalfEven
    rw [← heq]
    dsimp only
    split_ifs <;> first | omega | (exfalso; linarith)

/-- The halves on both sides of an even integer round to it. -/
theorem le_roundHalfEven_iff {k : Int} (hk : k % 2 = 0) (q : ℚ) :
    k ≤ roundHalfEven q ↔ (k : ℚ) - 1 / 2 ≤ q := by
  have hle := Int.floor_le q
  have hlt := Int.lt_floor_add_one q
  rcases lt_trichotomy (⌊q⌋ + 1) k with hbelow | hat | habove
  · have hround := roundHalfEven_le_floor_add_one q
    have hcast : (⌊q⌋ : ℚ) + 1 + 1 ≤ k := by exact_mod_cast hbelow
    constructor
    · intro h
      omega
    · intro h
      linarith
  · have hcast : (k : ℚ) = ⌊q⌋ + 1 := by exact_mod_cast hat.symm
    have hodd : ⌊q⌋ % 2 ≠ 0 := by omega
    unfold roundHalfEven
    dsimp only
    rw [if_neg hodd, hcast]
    split_ifs with hlow hhigh
    · constructor
      · intro h
        omega
      · intro h
        linarith
    · exact iff_of_true hat.ge (by linarith)
    · exact iff_of_true hat.ge (by linarith)
  · have hround := floor_le_roundHalfEven q
    have hcast : (k : ℚ) ≤ ⌊q⌋ := by exact_mod_cast Int.lt_add_one_iff.mp habove
    exact iff_of_true (by omega) (by linarith)

theorem calculateProgress_zero (total : Nat) : calculateProgress 0 total = 0 := by
  unfold calculateProgress
  split_ifs
  · rfl
  · simp [roundHalfEven]

theorem calculateProgress_le (processed total : Nat) : calculateProgress processed total ≤ 100 := by
  unfold calculateProgress
  split_ifs
  · decide
  · exact min_le_left _ _

/-- More rows processed of the same total are no smaller percentage. -/
theorem calculateProgress_mono {processed later : Nat} (h : processed ≤ later) (total : Nat) :
    calculateProgress processed total ≤ calculateProgress later total := by
  have hcast : (processed : ℚ) ≤ later := by exact_mod_cast h
  unfold calculateProgress
  split_ifs
  · exact le_rfl
  · have hratio : (processed : ℚ) / total * 100 ≤ later / total * 100 := by gcongr
    exact min_le_min_left 100 (roundHalfEven_mono hratio)

theorem calculateProgress_nonneg (processed total : Nat) :
    0 ≤ calculateProgress processed total := by
  rw [← calculateProgress_zero total]
  exact calculateProgress_mono (Nat.zero_le processed) total

/-- 100 stands for at most half a percent left. -/
theorem calculateProgress_eq_hundred_iff (processed total : Nat) :
    calculateProgress processed total = 100 ↔ 0 < total ∧ 200 * (total - processed) ≤ total := by
  unfold calculateProgress
  split_ifs with hzero
  · exact iff_of_false (by decide) (by omega)
  · have hpos : 0 < total := Nat.pos_of_ne_zero hzero
    have hposq : (0 : ℚ) < total := by exact_mod_cast hpos
    have hround := le_roundHalfEven_iff (k := 100) rfl ((processed : ℚ) / total * 100)
    have hmin : min 100 (roundHalfEven ((processed : ℚ) / total * 100)) = 100 ↔
        100 ≤ roundHalfEven ((processed : ℚ) / total * 100) := min_eq_left_iff
    have hratio : ((100 : Int) : ℚ) - 1 / 2 ≤ (processed : ℚ) / total * 100 ↔
        199 * total ≤ 200 * processed := by
      rw [div_mul_eq_mul_div, le_div_iff₀ hposq]
      constructor
      · intro h
        have hscaled : (199 : ℚ) * total ≤ 200 * processed := by
          norm_num at h
          linarith
        exact_mod_cast hscaled
      · intro h
        have hscaled : (199 : ℚ) * total ≤ 200 * processed := by exact_mod_cast h
        norm_num
        linarith
    rw [hmin, hround, hratio]
    constructor
    · intro h
      exact ⟨hpos, by omega⟩
    · intro h
      omega

end DataBridge
