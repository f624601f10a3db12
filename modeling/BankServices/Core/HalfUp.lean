/-
Rounding HALF_UP to whole units: to the nearest integer, and away from zero when two are equally near.

`round` is the mathematical function over an ordered field; `div` computes it on a quotient of integers. On
non-negative numbers it is ⌊x + 1/2⌋. Adding a whole number of units commutes with rounding there (`round_add`).
Subtracting from a whole number commutes with it except on a tie, where one unit more is left (`round_sub`,
`round_sub_tie`): both x and n - x are then rounded up.
-/
import Mathlib.Tactic

namespace BankServices.HalfUp

section Field

variable {K : Type*} [Field K] [LinearOrder K] [FloorRing K]

def round (x : K) : ℤ := if 0 ≤ x then ⌊x + 1 / 2⌋ else -⌊-x + 1 / 2⌋

/-- exactly halfway between two units -/
def Tie (x : K) : Prop := Int.fract x = 1 / 2

theorem round_of_nonneg {x : K} (h : 0 ≤ x) : round x = ⌊x + 1 / 2⌋ := if_pos h

variable [IsStrictOrderedRing K]

theorem round_intCast (n : ℤ) : round (n : K) = n := by
  have half : ⌊(1 / 2 : K)⌋ = 0 := by rw [Int.floor_eq_zero_iff]; constructor <;> norm_num
  unfold round
  split_ifs
  · rw [Int.floor_intCast_add, half, add_zero]
  · rw [← Int.cast_neg, Int.floor_intCast_add, half, add_zero, neg_neg]

/-- a whole number of units added before or after rounding -/
theorem round_add {n : ℤ} {x : K} (hn : 0 ≤ n) (hx : 0 ≤ x) : round (n + x) = n + round x := by
  have hn' : (0 : K) ≤ n := Int.cast_nonneg hn
  rw [round_of_nonneg (add_nonneg hn' hx), round_of_nonneg hx, add_assoc, Int.floor_intCast_add]

theorem round_nonneg {x : K} (hx : 0 ≤ x) : 0 ≤ round x := by
  rw [round_of_nonneg hx]
  exact Int.floor_nonneg.2 (by linarith)

theorem round_le_iff {x : K} (hx : 0 ≤ x) (n : ℤ) : round x ≤ n ↔ x < n + 1 / 2 := by
  rw [round_of_nonneg hx, Int.floor_le_iff]
  constructor <;> intro h <;> linarith

theorem round_pos_iff {x : K} (hx : 0 ≤ x) : 0 < round x ↔ 1 / 2 ≤ x := by
  have := round_le_iff hx 0
  rw [Int.cast_zero, zero_add] at this
  rw [← not_le, this, not_lt]

/-- no more than a whole number of units before rounding, no more after it -/
theorem round_le {n : ℤ} {x : K} (hx : 0 ≤ x) (h : x ≤ n) : round x ≤ n :=
  (round_le_iff hx n).2 (by linarith)

theorem sub_floor_half {n : ℤ} {x : K} (h : x ≤ n) : round ((n : K) - x) = n + ⌊1 / 2 - x⌋ := by
  rw [round_of_nonneg (by linarith), sub_add_eq_add_sub, add_sub_assoc, Int.floor_intCast_add]

theorem round_sub {n : ℤ} {x : K} (hx : 0 ≤ x) (h : x ≤ n) (ht : ¬ Tie x) : round ((n : K) - x) = n - round x := by
  rw [sub_floor_half h, round_of_nonneg hx, sub_eq_add_neg]
  congr 1
  -- x + 1/2 is no integer, so its floor and the floor of its opposite (plus one) are opposite
  have h1 : (⌊x + 1 / 2⌋ : K) ≤ x + 1 / 2 := Int.floor_le _
  have h2 : x + 1 / 2 < ⌊x + 1 / 2⌋ + 1 := Int.lt_floor_add_one _
  rw [Int.floor_eq_iff]
  push_cast
  refine ⟨by linarith, ?_⟩
  rcases h1.lt_or_eq with h3 | h3
  · linarith
  · exfalso
    apply ht
    have : x = ((⌊x + 1 / 2⌋ - 1 : ℤ) : K) + 1 / 2 := by push_cast; linarith
    unfold Tie
    rw [this, Int.fract_intCast_add]
    exact Int.fract_eq_self.2 ⟨by norm_num, by norm_num⟩

theorem round_sub_tie {n : ℤ} {x : K} (hx : 0 ≤ x) (h : x ≤ n) (ht : Tie x) :
    round ((n : K) - x) = n - round x + 1 := by
  have hfr : x = ⌊x⌋ + 1 / 2 := by
    have := Int.floor_add_fract x
    rw [ht] at this
    exact this.symm
  rw [sub_floor_half h, round_of_nonneg hx]
  have h1 : ⌊x + 1 / 2⌋ = ⌊x⌋ + 1 := by
    rw [Int.floor_eq_iff]
    push_cast
    constructor <;> linarith
  have h2 : ⌊1 / 2 - x⌋ = -⌊x⌋ := by
    rw [Int.floor_eq_iff]
    push_cast
    constructor <;> linarith
  rw [h1, h2]
  ring

end Field

/-! ## On quotients of integers -/

/-- `n / d` rounded HALF_UP, in integer arithmetic -/
def div (n : ℤ) (d : ℕ) : ℤ := if 0 ≤ n then (2 * n + d) / (2 * d) else -((2 * -n + d) / (2 * d))

theorem floor_half (n : ℤ) {d : ℕ} (hd : 0 < d) : ⌊(n : ℚ) / d + 1 / 2⌋ = (2 * n + d) / (2 * d) := by
  have hd' : (d : ℚ) ≠ 0 := by positivity
  have : (n : ℚ) / d + 1 / 2 = ((2 * n + d : ℤ) : ℚ) / ((2 * d : ℕ) : ℚ) := by
    push_cast
    field_simp
  rw [this, Rat.floor_intCast_div_natCast]
  push_cast
  rfl

theorem div_eq_round (n : ℤ) {d : ℕ} (hd : 0 < d) : div n d = round ((n : ℚ) / d) := by
  have hd' : (0 : ℚ) < d := by exact_mod_cast hd
  unfold div round
  by_cases hn : 0 ≤ n
  · rw [if_pos hn, if_pos (div_nonneg (by exact_mod_cast hn) hd'.le), floor_half n hd]
  · have hq : ¬ (0 : ℚ) ≤ (n : ℚ) / d := by
      rw [not_le]
      exact div_neg_of_neg_of_pos (by exact_mod_cast not_le.1 hn) hd'
    rw [if_neg hn, if_neg hq, ← neg_div, ← Int.cast_neg, floor_half (-n) hd]

example : div 5 10 = 1 ∧ div (-5) 10 = -1 ∧ div 4 10 = 0 := by decide

end BankServices.HalfUp
