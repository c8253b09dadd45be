import Mathlib.Algebra.Order.Round
import Mathlib.Data.Rat.Floor
import Mathlib.Tactic.FieldSimp
import Mathlib.Tactic.Linarith
import Mathlib.Tactic.Positivity
import TradeFlow.Number.Decimal

/-!
What decimals stand for.

A decimal stands for a rational number. Sums, differences and opposites of decimals are exact, and
the one operation that is not is rounding to a number of places. What is proved:

1. `roundHalfAway_eq`: the integer arithmetic gives the nearest integer, and of two the one away from
   zero (`halfAway`).
2. `abs_roundTo_sub_le` and `roundTo_mono`: rounding to places moves a number by at most half of the
   last place and keeps the order.
3. `Decimal.value_add`, `Decimal.value_neg`, `Decimal.value_sub`, `Decimal.value_round` and
   `Decimal.value_percent`: each operation on decimals by what it does to their numbers.
-/

namespace TradeFlow

/-! ## Rounding -/

/-- The nearest integer; of two integers that are equally near, the one away from zero. -/
def halfAway (x : ℚ) : ℤ := if x < 0 then -round (-x) else round x

variable {x y : ℚ}

theorem halfAway_of_nonneg (h : 0 ≤ x) : halfAway x = round x := if_neg h.not_gt

theorem halfAway_of_neg (h : x < 0) : halfAway x = -round (-x) := if_pos h

/-- Both signs are treated alike. -/
theorem halfAway_neg (x : ℚ) : halfAway (-x) = -halfAway x := by
  rcases lt_trichotomy x 0 with h | rfl | h
  · rw [halfAway_of_nonneg (neg_nonneg.2 h.le), halfAway_of_neg h, neg_neg]
  · rw [neg_zero, halfAway_of_nonneg le_rfl, round_zero, neg_zero]
  · rw [halfAway_of_neg (neg_lt_zero.2 h), halfAway_of_nonneg h.le, neg_neg]

theorem abs_halfAway_sub_le (x : ℚ) : |halfAway x - x| ≤ 1 / 2 := by
  rcases lt_or_ge x 0 with h | h
  · have hround := abs_sub_round (-x)
    rw [halfAway_of_neg h, Int.cast_neg]
    rwa [show -(round (-x) : ℚ) - x = -x - round (-x) by ring]
  · rw [halfAway_of_nonneg h, abs_sub_comm]
    exact abs_sub_round x

/-- A step down between two numbers would leave room for none between them. -/
theorem halfAway_mono (h : x ≤ y) : halfAway x ≤ halfAway y := by
  by_contra hlt
  have hstep : (halfAway y : ℚ) + 1 ≤ halfAway x := by
    exact_mod_cast Int.add_one_le_of_lt (not_le.1 hlt)
  have hx := (abs_le.1 (abs_halfAway_sub_le x)).2
  have hy := (abs_le.1 (abs_halfAway_sub_le y)).1
  obtain rfl : x = y := by linarith
  exact hlt le_rfl

/-- The integer arithmetic rounds the quotient. -/
theorem roundHalfAway_eq (num : Int) {den : Nat} (hden : 0 < den) :
    roundHalfAway num den = halfAway (num / den) := by
  have hpos : (0 : ℚ) < den := by exact_mod_cast hden
  have hmagnitude (n : Nat) : round ((n : ℚ) / den) = ((2 * n + den) / (2 * den) : Nat) := by
    have hhalf : (n : ℚ) / den + 1 / 2 = (2 * n + den : Nat) / (2 * den : Nat) := by
      push_cast
      field_simp
    rw [round_eq, hhalf, Rat.floor_natCast_div_natCast, Int.natCast_ediv]
  rw [roundHalfAway]
  rcases lt_or_ge num 0 with hneg | hnonneg
  · have habs : ((num.natAbs : Nat) : ℚ) = -num := by
      rw [Nat.cast_natAbs, abs_of_neg hneg, Int.cast_neg]
    have hquot : (num : ℚ) / den < 0 := div_neg_of_neg_of_pos (by exact_mod_cast hneg) hpos
    rw [if_pos hneg, halfAway_of_neg hquot, ← neg_div, ← habs, hmagnitude]
  · have habs : ((num.natAbs : Nat) : ℚ) = num := by
      rw [Nat.cast_natAbs, abs_of_nonneg hnonneg]
    have hquot : 0 ≤ (num : ℚ) / den := div_nonneg (by exact_mod_cast hnonneg) hpos.le
    rw [if_neg hnonneg.not_gt, halfAway_of_nonneg hquot, ← habs, hmagnitude]

theorem roundHalfAway_neg (num : Int) {den : Nat} (hden : 0 < den) :
    roundHalfAway (-num) den = -roundHalfAway num den := by
  rw [roundHalfAway_eq _ hden, roundHalfAway_eq _ hden, Int.cast_neg, neg_div, halfAway_neg]

/-- The number rounded to the given places. -/
def roundTo (places : Nat) (x : ℚ) : ℚ := halfAway (x * 10 ^ places) / 10 ^ places

/-- Rounding moves a number by at most half of its last place. -/
theorem abs_roundTo_sub_le (places : Nat) (x : ℚ) :
    |roundTo places x - x| ≤ 1 / 2 / 10 ^ places := by
  have hpos : (0 : ℚ) < 10 ^ places := by positivity
  have hscaled :
      roundTo places x - x = (halfAway (x * 10 ^ places) - x * 10 ^ places) / 10 ^ places := by
    rw [roundTo]
    field_simp
  rw [hscaled, abs_div, abs_of_pos hpos]
  exact div_le_div_of_nonneg_right (abs_halfAway_sub_le _) hpos.le

theorem roundTo_mono (places : Nat) (h : x ≤ y) : roundTo places x ≤ roundTo places y := by
  have hpos : (0 : ℚ) < 10 ^ places := by positivity
  have hscaled : x * 10 ^ places ≤ y * 10 ^ places := mul_le_mul_of_nonneg_right h hpos.le
  exact div_le_div_of_nonneg_right (by exact_mod_cast halfAway_mono hscaled) hpos.le

/-! ## Operations -/

/-- A magnitude with a sign. -/
def signed {α : Type*} [Neg α] (negative : Bool) (a : α) : α := if negative then -a else a

namespace Decimal

variable (d e : Decimal) (places : Nat)

/-- The number that a decimal stands for. -/
def value : ℚ := d.coefficient / 10 ^ d.places

/-- Sign and digits of the coefficient give the number. -/
theorem value_eq_signed :
    d.value = signed (decide (d.coefficient < 0)) (d.coefficient.natAbs : ℚ) / 10 ^ d.places := by
  rw [value, signed, Nat.cast_natAbs]
  split
  · next hneg => rw [abs_of_neg (of_decide_eq_true hneg), Int.cast_neg, neg_neg]
  · next hneg => rw [abs_of_nonneg (by simpa using hneg)]

theorem value_ofInt (i : Int) : (ofInt i).value = i := by
  rw [value, ofInt, pow_zero, div_one]

/-- With more places a decimal stands for the same number. -/
theorem rescale_div (h : d.places ≤ places) : (d.rescale places : ℚ) / 10 ^ places = d.value := by
  have hpow : (10 : ℚ) ^ places = 10 ^ (places - d.places) * 10 ^ d.places := by
    rw [← pow_add, Nat.sub_add_cancel h]
  rw [rescale, Nat.pow_eq, value, hpow]
  push_cast
  field_simp

/-- Sums are exact. -/
theorem value_add : (d + e).value = d.value + e.value := by
  have hd := d.rescale_div (Nat.max d.places e.places) (Nat.le_max_left _ _)
  have he := e.rescale_div (Nat.max d.places e.places) (Nat.le_max_right _ _)
  rw [← hd, ← he, ← add_div, ← Int.cast_add]
  rfl

theorem value_neg : (-d).value = -d.value := by
  show ((-d.coefficient : Int) : ℚ) / 10 ^ d.places = -d.value
  rw [Int.cast_neg, neg_div, value]

theorem value_sub : (d - e).value = d.value - e.value := by
  show (d + -e).value = _
  rw [value_add, value_neg, sub_eq_add_neg]

theorem neg_neg : - -d = d := by
  show Decimal.mk (- -d.coefficient) d.places = d
  rw [Int.neg_neg]

theorem pow_places_pos : 0 < Nat.pow 10 d.places := Nat.pow_pos (by decide)

/-- Rounding a decimal rounds its number. -/
theorem value_round : (d.round places).value = roundTo places d.value := by
  rw [round, value, roundHalfAway_eq _ d.pow_places_pos, roundTo, value, Nat.pow_eq, Nat.pow_eq]
  push_cast
  rw [mul_div_right_comm]

/-- A percentage is divided by a hundred with sixteen places. -/
theorem value_percent : d.percent.value = roundTo 16 (d.value / 100) := by
  have hhundredth : Decimal.value ⟨d.coefficient, d.places + 2⟩ = d.value / 100 := by
    rw [value, value, pow_add, ← div_div]
    norm_num
  rw [percent, value_round, hhundredth]

theorem round_neg : (-d).round places = -d.round places := by
  show Decimal.mk (roundHalfAway (-d.coefficient * _) (Nat.pow 10 d.places)) places = _
  rw [Int.neg_mul, roundHalfAway_neg _ d.pow_places_pos]
  rfl

theorem percent_neg : (-d).percent = -d.percent :=
  round_neg ⟨d.coefficient, d.places + 2⟩ 16

end Decimal

end TradeFlow
