import TradeFlow.Proofs.Number.Decimal
import TradeFlow.Proofs.Number.Order

/-!
The shortest decimals of doubles are ordered as the doubles.

The intervals of neighbouring magnitudes touch in one point at most, so that their shortest decimals
are apart. What is proved:

1. `value_shortest_strictMono`: a larger magnitude has a larger shortest decimal.
2. `signed_le_iff`: with their signs, magnitudes that grow with their codes are ordered as the codes.
3. `exists_ofBinary64?` and `ofBinary64?_neg`: a finite double has the decimal of its shortest text, and
   the opposite double has the opposite decimal.
4. `lt_eq_false_iff_shortestValue_le`: finite doubles are ordered as the numbers of their shortest
   texts.
-/

namespace TradeFlow

/-- The number that a decimal of natural numbers stands for. -/
def Shortest.value (s : Shortest) : ℚ := s.num / s.den

namespace Binary64

/-! ## Magnitudes -/

theorem num_shortest_zero : (shortest 0).num = 0 := rfl

theorem value_shortest_zero : (shortest 0).value = 0 := by
  rw [Shortest.value, num_shortest_zero, Nat.cast_zero, zero_div]

/-- The shortest decimal lies in the interval of its magnitude, also for zero. -/
theorem rounds_shortest (code : Nat) :
    Rounds ((shortest code).num * one) (shortest code).den code := by
  by_cases hcode : code = 0
  · have hzero : (shortest 0).num * one = units 0 * 1 := by
      rw [num_shortest_zero, Nat.zero_mul]
      rfl
    rw [hcode, hzero]
    exact rounds_units 0 Nat.one_pos
  · exact shortest_rounds hcode

theorem value_shortest_lt_next (code : Nat) :
    (shortest code).value < (shortest (code + 1)).value := by
  have hlt := (rounds_shortest code).lt_next (shortest code).den_pos (shortest (code + 1)).den_pos
    (rounds_shortest (code + 1))
  rw [Nat.mul_right_comm, Nat.mul_right_comm _ one] at hlt
  have hcross := Nat.lt_of_mul_lt_mul_right hlt
  rw [Shortest.value, Shortest.value, div_lt_div_iff₀ (by exact_mod_cast Shortest.den_pos _)
    (by exact_mod_cast Shortest.den_pos _)]
  exact_mod_cast hcross

/-- A larger magnitude has a larger shortest decimal. -/
theorem value_shortest_strictMono : StrictMono fun code => (shortest code).value :=
  strictMono_nat_of_lt_succ value_shortest_lt_next

/-! ## Signs -/

section Signs

variable {α : Type*} [AddCommGroup α] [LinearOrder α] [IsOrderedAddMonoid α]

variable {f : Nat → α} {p q : Bool} {x y : Nat}

/-- With their signs, magnitudes that grow with their codes are ordered as the codes. -/
theorem signed_le_iff (hf : StrictMono f) (hzero : f 0 = 0) :
    signed p (f x) ≤ signed q (f y) ↔ signed p (x : Int) ≤ signed q (y : Int) := by
  have hnonneg (n : Nat) : 0 ≤ f n := hzero ▸ hf.monotone (Nat.zero_le n)
  cases p <;> cases q <;> simp only [signed, if_true, Bool.false_eq_true, if_false]
  · rw [hf.le_iff_le, Int.ofNat_le]
  · -- only zero is neither above nor below zero
    constructor
    · intro h
      have hx : f x ≤ f 0 := hzero ▸ h.trans (neg_nonpos.2 (hnonneg y))
      have hy : f y ≤ f 0 := hzero ▸ neg_nonneg.1 ((hnonneg x).trans h)
      have := hf.le_iff_le.1 hx
      have := hf.le_iff_le.1 hy
      omega
    · intro h
      obtain rfl : x = 0 := by omega
      obtain rfl : y = 0 := by omega
      rw [hzero, neg_zero]
  · exact iff_of_true ((neg_nonpos.2 (hnonneg x)).trans (hnonneg y)) (by omega)
  · rw [neg_le_neg_iff, hf.le_iff_le, neg_le_neg_iff, Int.ofNat_le]

end Signs

/-! ## Decimals of doubles -/

/-- The number that the shortest text of a finite double stands for. -/
def shortestValue : Binary64 → ℚ
  | .finite negative code => signed negative (shortest code).value
  | _ => 0

/-- The number of the shortest text is a decimal that is read as the double. -/
theorem exists_shortestValue {a : Binary64} (h : a.isFinite = true) :
    ∃ (negative : Bool) (s : Shortest), a.shortestValue = signed negative s.value ∧
      ofDecimal negative s.digits s.exponent = a := by
  obtain ⟨negative, code, rfl⟩ := exists_eq_finite h
  exact ⟨negative, shortest code, rfl, ofDecimal_shortest negative code⟩

/-- A finite double has a decimal, the one of its shortest text. -/
theorem exists_ofBinary64? {a : Binary64} (h : a.isFinite = true) :
    ∃ d, Decimal.ofBinary64? a = some d ∧ d.value = a.shortestValue := by
  obtain ⟨negative, code, rfl⟩ := exists_eq_finite h
  simp only [Decimal.ofBinary64?, shortestValue]
  by_cases hexp : 0 ≤ (shortest code).exponent
  · refine ⟨_, if_pos hexp, ?_⟩
    rw [Decimal.value, Shortest.value, Shortest.num, Shortest.den, if_pos hexp, if_pos hexp]
    cases negative <;> simp [signed]
  · refine ⟨_, if_neg hexp, ?_⟩
    rw [Decimal.value, Shortest.value, Shortest.num, Shortest.den, if_neg hexp, if_neg hexp]
    cases negative <;> simp [signed, neg_div]

/-- The opposite double has the opposite decimal. -/
theorem ofBinary64?_neg (a : Binary64) :
    Decimal.ofBinary64? (-a) = (Decimal.ofBinary64? a).map fun d => -d := by
  cases a with
  | nan => rfl
  | infinity negative => rfl
  | finite negative code =>
    show Decimal.ofBinary64? (.finite (!negative) code) = _
    have hsign (n : Int) : (if !negative then -n else n) = -if negative then -n else n := by
      cases negative <;> simp
    simp only [Decimal.ofBinary64?, hsign, Int.neg_mul]
    split <;> rfl

/-- Finite doubles are ordered as the numbers of their shortest texts. -/
theorem lt_eq_false_iff_shortestValue_le {a b : Binary64} (ha : a.isFinite = true)
    (hb : b.isFinite = true) : b.lt a = false ↔ a.shortestValue ≤ b.shortestValue := by
  obtain ⟨p, x, rfl⟩ := exists_eq_finite ha
  obtain ⟨q, y, rfl⟩ := exists_eq_finite hb
  have hunits : StrictMono fun code => (units code : Int) :=
    fun _ _ h => Int.ofNat_lt.2 (units_strictMono h)
  calc (finite q y).lt (finite p x) = false
      ↔ signed p (units x : Int) ≤ signed q (units y : Int) := lt_eq_false_iff nofun nofun
    _ ↔ signed p (x : Int) ≤ signed q (y : Int) := signed_le_iff hunits rfl
    _ ↔ signed p (shortest x).value ≤ signed q (shortest y).value :=
        (signed_le_iff value_shortest_strictMono value_shortest_zero).symm

end Binary64

end TradeFlow
