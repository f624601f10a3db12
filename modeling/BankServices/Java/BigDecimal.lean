/-
`java.math.BigDecimal`: an unscaled integer and a scale, with exact addition, subtraction and comparison and
`setScale(s, HALF_UP)`. `toRat` is the number it stands for; the operations are the ones of the rationals.
-/
import BankServices.Core.HalfUp

namespace BankServices.Java

/-- unscaled · 10^(-scale) -/
structure BigDecimal where
  unscaled : ℤ
  scale : ℤ
deriving DecidableEq, Repr

namespace BigDecimal

def zero : BigDecimal := ⟨0, 0⟩

def toRat (b : BigDecimal) : ℚ := b.unscaled * (10 : ℚ) ^ (-b.scale)

/-- the unscaled value at a scale that is not smaller -/
def unscaledAt (b : BigDecimal) (s : ℤ) : ℤ := b.unscaled * 10 ^ (s - b.scale).toNat

def add (a b : BigDecimal) : BigDecimal :=
  ⟨a.unscaledAt (max a.scale b.scale) + b.unscaledAt (max a.scale b.scale), max a.scale b.scale⟩

def subtract (a b : BigDecimal) : BigDecimal :=
  ⟨a.unscaledAt (max a.scale b.scale) - b.unscaledAt (max a.scale b.scale), max a.scale b.scale⟩

/-- -1, 0 or 1 -/
def compareTo (a b : BigDecimal) : ℤ :=
  (a.unscaledAt (max a.scale b.scale) - b.unscaledAt (max a.scale b.scale)).sign

/-- `setScale(s, RoundingMode.HALF_UP)` -/
def setScaleHalfUp (b : BigDecimal) (s : ℤ) : BigDecimal :=
  if b.scale ≤ s then ⟨b.unscaledAt s, s⟩ else ⟨HalfUp.div b.unscaled (10 ^ (b.scale - s).toNat), s⟩

theorem unscaledAt_eq (b : BigDecimal) {s : ℤ} (h : b.scale ≤ s) : (b.unscaledAt s : ℚ) = b.toRat * (10 : ℚ) ^ s := by
  have hs : s = -b.scale + s + b.scale := by ring
  have hn : ((s - b.scale).toNat : ℤ) = s - b.scale := Int.toNat_of_nonneg (by omega)
  unfold unscaledAt toRat
  push_cast
  rw [← zpow_natCast, hn, mul_assoc, ← zpow_add₀ (by norm_num : (10 : ℚ) ≠ 0)]
  congr 2
  ring

theorem toRat_mk (u s : ℤ) : (⟨u, s⟩ : BigDecimal).toRat = u * (10 : ℚ) ^ (-s) := rfl

@[simp] theorem toRat_zero : zero.toRat = 0 := by simp [toRat, zero]

@[simp] theorem toRat_add (a b : BigDecimal) : (a.add b).toRat = a.toRat + b.toRat := by
  rw [add, toRat_mk, Int.cast_add, unscaledAt_eq a (le_max_left _ _), unscaledAt_eq b (le_max_right _ _), ← add_mul,
    mul_assoc, ← zpow_add₀ (by norm_num : (10 : ℚ) ≠ 0), add_neg_cancel, zpow_zero, mul_one]

@[simp] theorem toRat_subtract (a b : BigDecimal) : (a.subtract b).toRat = a.toRat - b.toRat := by
  rw [subtract, toRat_mk, Int.cast_sub, unscaledAt_eq a (le_max_left _ _), unscaledAt_eq b (le_max_right _ _),
    ← sub_mul, mul_assoc, ← zpow_add₀ (by norm_num : (10 : ℚ) ≠ 0), add_neg_cancel, zpow_zero, mul_one]

theorem unscaledAt_lt_iff (a b : BigDecimal) :
    a.unscaledAt (max a.scale b.scale) < b.unscaledAt (max a.scale b.scale) ↔ a.toRat < b.toRat := by
  rw [← Int.cast_lt (R := ℚ), unscaledAt_eq a (le_max_left _ _), unscaledAt_eq b (le_max_right _ _)]
  exact mul_lt_mul_iff_left₀ (zpow_pos (by norm_num) _)

theorem compareTo_neg_iff (a b : BigDecimal) : a.compareTo b < 0 ↔ a.toRat < b.toRat := by
  rw [compareTo, Int.sign_neg_iff, ← unscaledAt_lt_iff]
  omega

theorem compareTo_le_iff (a b : BigDecimal) : a.compareTo b ≤ 0 ↔ a.toRat ≤ b.toRat := by
  rw [compareTo, ← not_lt, Int.sign_pos_iff, ← @not_lt _ _ b.toRat, ← unscaledAt_lt_iff b a, max_comm b.scale]
  omega

/-- rounding to a scale is rounding HALF_UP to whole units of that scale -/
theorem unscaled_setScaleHalfUp (b : BigDecimal) (s : ℤ) :
    (b.setScaleHalfUp s).unscaled = HalfUp.round (b.toRat * (10 : ℚ) ^ s) := by
  unfold setScaleHalfUp
  split_ifs with h
  · rw [← unscaledAt_eq b h, HalfUp.round_intCast]
  · have hn : ((b.scale - s).toNat : ℤ) = b.scale - s := Int.toNat_of_nonneg (by omega)
    show HalfUp.div b.unscaled (10 ^ (b.scale - s).toNat) = _
    rw [HalfUp.div_eq_round _ (by positivity)]
    congr 1
    unfold toRat
    push_cast
    rw [← zpow_natCast, hn, mul_assoc, ← zpow_add₀ (by norm_num : (10 : ℚ) ≠ 0), div_eq_mul_inv, ← zpow_neg]
    congr 2
    ring

end BigDecimal

end BankServices.Java
