import TradeFlow.Proofs.Json.Number
import TradeFlow.Proofs.Number.Decimal

/-!
Numbers written with a fixed number of places.

`FixedText` is the shape of such a text, and the number that it stands for is read from its digits.
What is proved:

1. `FixedText.text_injective`: a text has its shape in one way only, so that it stands for one number.
2. `Decimal.fixed_eq`: the text of a decimal with a fixed number of places has this shape.
3. `Decimal.number_fixedText`: it stands for the decimal rounded to these places.
-/

namespace TradeFlow

open Json

/-! ## Shape -/

/-- A number written with a fixed number of places. In front of the point there is no leading zero,
unless it is the only digit there, and zero has no sign. -/
@[ext]
structure FixedText (places : Nat) where
  negative : Bool
  whole : List Char
  fraction : List Char
  isInteger : IsInteger whole
  isDigit : ∀ c ∈ fraction, c.isDigit = true
  length_eq : fraction.length = places
  ne_zero : negative = true → digitsValue (digitsValue 0 whole) fraction ≠ 0

namespace FixedText

variable {places : Nat}

/-- The sign, the digits and the point between them. -/
def text (t : FixedText places) : List Char :=
  signText t.negative ++ (t.whole ++ pointText t.fraction)

/-- The number that the text stands for. -/
def number (t : FixedText places) : ℚ :=
  signed t.negative (digitsValue (digitsValue 0 t.whole) t.fraction : ℚ) / 10 ^ places

/-- The text spells a number without an exponent. -/
def spelling (t : FixedText places) : Spelling := ⟨t.whole, t.fraction, none, t.isInteger, t.isDigit⟩

theorem text_eq_spelling (t : FixedText places) :
    t.text = signText t.negative ++ t.spelling.text := by
  rw [text, Spelling.text, spelling, powerText, List.append_nil]

/-- The sign is read from the text. -/
theorem negative_eq {t u : FixedText places} (h : t.text = u.text) : t.negative = u.negative := by
  have hend : EndsNumber [] := nofun
  have ht := number?_spelled t.spelling t.negative hend
  have hu := number?_spelled u.spelling u.negative hend
  rw [← text_eq_spelling] at ht hu
  rw [h, hu] at ht
  have hnumber := (Prod.mk.inj (Option.some.inj ht)).1
  exact (congrArg JsonNumber.negative hnumber).symm

theorem length_pointText (digits : List Char) :
    (pointText digits).length = if digits.length = 0 then 0 else digits.length + 1 := by
  cases digits <;> rfl

theorem tail_pointText (digits : List Char) : (pointText digits).tail = digits := by
  cases digits <;> rfl

/-- A text has the shape in one way only: the number of places says where the point stands. -/
theorem text_injective : Function.Injective (text : FixedText places → List Char) := by
  intro t u h
  have hnegative := negative_eq h
  rw [text, text, hnegative, List.append_cancel_left_eq] at h
  have hlength : (pointText t.fraction).length = (pointText u.fraction).length := by
    rw [length_pointText, length_pointText, t.length_eq, u.length_eq]
  obtain ⟨hwhole, hpoint⟩ := List.append_inj' h hlength
  have hfraction := congrArg List.tail hpoint
  rw [tail_pointText, tail_pointText] at hfraction
  exact FixedText.ext hnegative hwhole hfraction

end FixedText

/-! ## Decimals -/

namespace Decimal

/-- The digits of a natural number, with zeros in front where they are no more than the places. -/
def padded (n places : Nat) : List Char :=
  List.replicate (places + 1 - (natText n).length) '0' ++ natText n

theorem length_padded (n places : Nat) :
    (padded n places).length = max (places + 1) (natText n).length := by
  rw [padded, List.length_append, List.length_replicate]
  omega

theorem isDigit_padded (n places : Nat) : ∀ c ∈ padded n places, c.isDigit = true := by
  intro c hc
  rcases List.mem_append.1 hc with hzero | hdigit
  · rw [List.eq_of_mem_replicate hzero]
    rfl
  · exact isDigit_natText n c hdigit

theorem digitsValue_padded (n places : Nat) : digitsValue 0 (padded n places) = n := by
  rw [padded, digitsValue_append, digitsValue_zeros, Nat.zero_mul, digitsValue_natText]

/-- Zeros are put in front of the point only where there is no other digit. -/
theorem isInteger_take_padded (n places : Nat) :
    IsInteger ((padded n places).take ((padded n places).length - places)) := by
  have hlength := length_natText_pos n
  rw [length_padded]
  by_cases hshort : (natText n).length ≤ places
  · have hone : max (places + 1) (natText n).length - places = 1 := by omega
    have hzeros : places + 1 - (natText n).length = places - (natText n).length + 1 := by omega
    rw [hone, padded, hzeros]
    exact .inl rfl
  · have hnone : places + 1 - (natText n).length = 0 := by omega
    have hpadded : padded n places = natText n := by
      rw [padded, hnone, List.replicate_zero, List.nil_append]
    rw [hpadded]
    by_cases hn : n = 0
    · subst hn
      obtain rfl : places = 0 := Nat.le_zero.1 (Nat.le_of_lt_succ (Nat.not_le.1 hshort))
      exact .inl rfl
    · exact isInteger_take hn (by omega)

/-- The point cuts the digits in two. -/
theorem digitsValue_digits (d : Decimal) :
    digitsValue (digitsValue 0 d.digits.1) d.digits.2 = d.coefficient.natAbs := by
  rw [← digitsValue_append, ← digitsValue_padded d.coefficient.natAbs d.places]
  exact congrArg (digitsValue 0) (List.take_append_drop _ _)

theorem length_digits (d : Decimal) : d.digits.2.length = d.places := by
  show (List.drop ((padded _ d.places).length - d.places) (padded _ d.places)).length = _
  have hlength := length_padded d.coefficient.natAbs d.places
  rw [List.length_drop]
  omega

/-- How a decimal is written with all its places. -/
def written (d : Decimal) : FixedText d.places where
  negative := decide (d.coefficient < 0)
  whole := d.digits.1
  fraction := d.digits.2
  isInteger := isInteger_take_padded _ _
  isDigit := fun c hc => isDigit_padded _ _ c (List.mem_of_mem_drop hc)
  length_eq := d.length_digits
  ne_zero := fun h => by
    rw [digitsValue_digits, Int.natAbs_ne_zero]
    exact (of_decide_eq_true h).ne

theorem number_written (d : Decimal) : d.written.number = d.value := by
  rw [value_eq_signed, ← digitsValue_digits]
  rfl

/-- How a decimal is written with a fixed number of places. -/
def fixedText (d : Decimal) (places : Nat) : FixedText places := (d.round places).written

theorem fixed_eq (d : Decimal) (places : Nat) :
    d.fixed places = String.ofList (d.fixedText places).text := by
  have hsign : signText (decide ((d.round places).coefficient < 0)) =
      if (d.round places).coefficient < 0 then ['-'] else [] := by
    simp only [signText, decide_eq_true_eq]
  rw [fixed, render, List.append_assoc, ← hsign]
  rfl

/-- The text stands for the rounded decimal. -/
theorem number_fixedText (d : Decimal) (places : Nat) :
    (d.fixedText places).number = roundTo places d.value := by
  rw [← value_round]
  exact number_written (d.round places)

end Decimal

end TradeFlow
