import TradeFlow.Program.Expression
import TradeFlow.Proofs.Number.DecimalOrder
import TradeFlow.Proofs.Number.Fixed

/-!
The factors that move prices by percentages.

A percentage moves a price below or above itself by a factor, which a program shows with four places.
The number is rounded twice on its way, when the percentage is divided by a hundred and when the
factor is written. What is proved:

1. `percentFactor?_neg`: the opposite percentage has the factors of the other sides.
2. `Scales.value_eq` and `Scales.number_eq`: the factor and the number in the text, as functions of the
   number of the percentage.
3. `abs_shown_sub_le`, `shown_below_anti` and `shown_above_mono`: both roundings together are within
   half of the last place of each, and they keep the order.
4. `percent_factors`: so the factors of finite percentages are accurate, symmetric and monotone.
-/

namespace TradeFlow

/-! ## Sides -/

/-- The other side. -/
def Side.opposite : Side → Side
  | .below => .above
  | .above => .below

/-- The opposite percentage has the factor of the other side. -/
theorem percentFactor?_neg (p : Binary64) (side : Side) :
    percentFactor? (-p) side = percentFactor? p side.opposite := by
  rw [percentFactor?, Binary64.ofBinary64?_neg, Option.map_map, percentFactor?]
  congr 1
  funext d
  cases side with
  | below =>
    show Decimal.ofInt 1 + -(-d).percent = Decimal.ofInt 1 + d.percent
    rw [Decimal.percent_neg, Decimal.neg_neg]
  | above =>
    show Decimal.ofInt 1 + (-d).percent = Decimal.ofInt 1 + -d.percent
    rw [Decimal.percent_neg]

/-- One moved to a side. -/
def Side.move (side : Side) (x : ℚ) : ℚ :=
  match side with
  | .below => 1 - x
  | .above => 1 + x

/-- The number that is shown for a percentage. -/
def Side.shown (side : Side) (x : ℚ) : ℚ := roundTo 4 (side.move (roundTo 16 (x / 100)))

variable {p q : Binary64} {side : Side} {factor : Decimal} {t : FixedText 4} {x y : ℚ}

theorem abs_shown_sub_le (side : Side) (x : ℚ) :
    |side.shown x - side.move (x / 100)| ≤ 1 / 20000 + 1 / (2 * 10 ^ 16) := by
  have hmove : |side.move (roundTo 16 (x / 100)) - side.move (x / 100)| ≤ 1 / 2 / 10 ^ 16 := by
    have hpercent := abs_roundTo_sub_le 16 (x / 100)
    cases side with
    | below =>
      rw [abs_sub_comm] at hpercent
      simpa only [Side.move, sub_sub_sub_cancel_left] using hpercent
    | above => simpa only [Side.move, add_sub_add_left_eq_sub] using hpercent
  calc |side.shown x - side.move (x / 100)|
      ≤ |side.shown x - side.move (roundTo 16 (x / 100))| +
          |side.move (roundTo 16 (x / 100)) - side.move (x / 100)| := abs_sub_le _ _ _
    _ ≤ 1 / 2 / 10 ^ 4 + 1 / 2 / 10 ^ 16 := add_le_add (abs_roundTo_sub_le 4 _) hmove
    _ = 1 / 20000 + 1 / (2 * 10 ^ 16) := by norm_num

theorem shown_below_anti (h : x ≤ y) : Side.below.shown y ≤ Side.below.shown x := by
  apply roundTo_mono
  apply sub_le_sub_left
  apply roundTo_mono
  exact div_le_div_of_nonneg_right h (by norm_num)

theorem shown_above_mono (h : x ≤ y) : Side.above.shown x ≤ Side.above.shown y := by
  apply roundTo_mono
  apply add_le_add_right
  apply roundTo_mono
  exact div_le_div_of_nonneg_right h (by norm_num)

/-! ## Texts -/

/-- A finite percentage has a factor on either side. -/
theorem exists_percentFactor (hp : p.isFinite = true) (side : Side) :
    ∃ factor, percentFactor? p side = some factor ∧
      factor.value = side.move (roundTo 16 (p.shortestValue / 100)) := by
  obtain ⟨d, hd, hvalue⟩ := Binary64.exists_ofBinary64? hp
  rw [percentFactor?, hd, ← hvalue, ← Decimal.value_percent]
  refine ⟨_, rfl, ?_⟩
  cases side with
  | below => rw [Decimal.value_sub, Decimal.value_ofInt, Int.cast_one, Side.move]
  | above => rw [Decimal.value_add, Decimal.value_ofInt, Int.cast_one, Side.move]

/-- A percentage that is not finite has no factor. -/
theorem isSome_percentFactor? (p : Binary64) (side : Side) :
    (percentFactor? p side).isSome = p.isFinite := by
  cases p with
  | nan => rfl
  | infinity negative => rfl
  | finite negative code =>
    obtain ⟨factor, hfactor, -⟩ := exists_percentFactor (p := .finite negative code) rfl side
    rw [hfactor]
    rfl

/-- A percentage moves prices to a side by a factor, and a text stands for the factor behind every
expression of a price. -/
structure Scales (p : Binary64) (side : Side) (factor : Decimal) (t : FixedText 4) : Prop where
  factor_eq : percentFactor? p side = some factor
  scaled_eq : ∀ base, scaled base factor = base ++ " * " ++ String.ofList t.text

theorem exists_scales (hp : p.isFinite = true) (side : Side) :
    ∃ factor t, Scales p side factor t := by
  obtain ⟨factor, hfactor, -⟩ := exists_percentFactor hp side
  exact ⟨factor, factor.fixedText 4, hfactor, fun base => by rw [scaled, Decimal.fixed_eq]⟩

namespace Scales

theorem isFinite (h : Scales p side factor t) : p.isFinite = true := by
  rw [← isSome_percentFactor? p side, h.factor_eq]
  rfl

/-- The factor is exact but for the hundredth. -/
theorem value_eq (h : Scales p side factor t) :
    factor.value = side.move (roundTo 16 (p.shortestValue / 100)) := by
  obtain ⟨same, hsame, hvalue⟩ := exists_percentFactor h.isFinite side
  obtain rfl : same = factor := Option.some.inj (hsame.symm.trans h.factor_eq)
  exact hvalue

/-- The text is the factor with four places, which no other text of its shape is. -/
theorem text_eq (h : Scales p side factor t) : t = factor.fixedText 4 := by
  have hscaled := congrArg String.toList (h.scaled_eq "")
  simp only [scaled, Decimal.fixed_eq, String.toList_append, String.toList_ofList,
    List.append_cancel_left_eq] at hscaled
  exact (FixedText.text_injective hscaled).symm

theorem number_eq (h : Scales p side factor t) : t.number = side.shown p.shortestValue := by
  rw [h.text_eq, Decimal.number_fixedText, h.value_eq, Side.shown]

end Scales

/-- **The factors of a percentage.** A finite percentage is the decimal of its shortest text, and has a
factor below and one above a price. The two add up to two, and those of the opposite percentage are the
same the other way round. Behind each expression stands ` * ` with the text of a number with four places,
which is off the exact factor by at most half of the last places of the two roundings. When a percentage
grows, the number below does not grow and the one above does not fall. -/
theorem percent_factors (hp : p.isFinite = true) :
    (∃ (negative : Bool) (s : Shortest), p.shortestValue = signed negative s.value ∧
      Binary64.ofDecimal negative s.digits s.exponent = p) ∧
    ∃ below above b a, Scales p .below below b ∧ Scales p .above above a ∧
      below.value + above.value = 2 ∧
      percentFactor? (-p) .below = percentFactor? p .above ∧
      |b.number - (1 - p.shortestValue / 100)| ≤ 1 / 20000 + 1 / (2 * 10 ^ 16) ∧
      |a.number - (1 + p.shortestValue / 100)| ≤ 1 / 20000 + 1 / (2 * 10 ^ 16) ∧
      ∀ q factor t, q.lt p = false →
        (Scales q .below factor t → t.number ≤ b.number) ∧
        (Scales q .above factor t → a.number ≤ t.number) := by
  obtain ⟨below, b, hbelow⟩ := exists_scales hp .below
  obtain ⟨above, a, habove⟩ := exists_scales hp .above
  have hsum : below.value + above.value = 2 := by
    rw [hbelow.value_eq, habove.value_eq, Side.move, Side.move]
    ring
  refine ⟨Binary64.exists_shortestValue hp, below, above, b, a, hbelow, habove, hsum,
    percentFactor?_neg p .below, ?_, ?_, ?_⟩
  · rw [hbelow.number_eq]
    exact abs_shown_sub_le .below p.shortestValue
  · rw [habove.number_eq]
    exact abs_shown_sub_le .above p.shortestValue
  · intro q factor t hle
    constructor
    · intro ht
      rw [ht.number_eq, hbelow.number_eq]
      exact shown_below_anti ((Binary64.lt_eq_false_iff_shortestValue_le hp ht.isFinite).1 hle)
    · intro ht
      rw [ht.number_eq, habove.number_eq]
      exact shown_above_mono ((Binary64.lt_eq_false_iff_shortestValue_le hp ht.isFinite).1 hle)

theorem percent_factors_oneHundredFifty :
    (Binary64.ofNat 150).isFinite = true ∧ (Binary64.ofNat 200).lt (Binary64.ofNat 150) = false ∧
      ∃ below above b a, Scales (.ofNat 150) .below below b ∧ Scales (.ofNat 150) .above above a ∧
        b.text = ['-', '0', '.', '5', '0', '0', '0'] ∧
        ∀ factor t, Scales (.ofNat 200) .below factor t → t.number ≤ b.number := by
  have hfinite : (Binary64.ofNat 150).isFinite = true := by decide +kernel
  have hle : (Binary64.ofNat 200).lt (Binary64.ofNat 150) = false := by decide +kernel
  have hfactor : percentFactor? (.ofNat 150) .below = some ⟨-5000000000000000, 16⟩ := by
    decide +kernel
  obtain ⟨-, below, above, b, a, hbelow, habove, -, -, -, -, horder⟩ := percent_factors hfinite
  obtain rfl : (⟨-5000000000000000, 16⟩ : Decimal) = below :=
    Option.some.inj (hfactor.symm.trans hbelow.factor_eq)
  refine ⟨hfinite, hle, _, above, b, a, hbelow, habove, ?_, fun factor t => ?_⟩
  · rw [hbelow.text_eq]
    decide +kernel
  · exact (horder _ factor t hle).1

/-! An eighth of a percent is a half of the last place. -/

example : (percentFactor? (.ofRatio false 1 8) .above).map (fun d => (d.fixedText 4).text) =
    some ['1', '.', '0', '0', '1', '3'] := by decide +kernel

end TradeFlow
