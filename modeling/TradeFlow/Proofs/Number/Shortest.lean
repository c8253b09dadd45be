import TradeFlow.Number.Shortest
import TradeFlow.Proofs.Number.Rounding

/-!
The shortest decimal reads back as its number.

A decimal is a ratio of natural numbers, and the search for the shortest one only takes ratios in the
interval that is rounded to the magnitude. What is proved:

1. `shortest_rounds`: the shortest decimal of a magnitude lies in its interval.
2. `ofDecimal_of_rounds`: a decimal in the interval of a finite magnitude is read as this magnitude;
   its size is never mistaken for one out of range.
3. `ofDecimal_shortest`: so every finite number is read back from its shortest decimal.
-/

namespace TradeFlow

namespace Shortest

/-- The numerator of a decimal. -/
def num (s : Shortest) : Nat :=
  if 0 ≤ s.exponent then s.digits * Nat.pow 10 s.exponent.toNat else s.digits

/-- The denominator of a decimal. -/
def den (s : Shortest) : Nat := if 0 ≤ s.exponent then 1 else Nat.pow 10 s.exponent.natAbs

theorem den_pos (s : Shortest) : 0 < s.den := by
  rw [den]
  split
  · exact Nat.one_pos
  · exact Nat.pow_pos (by decide)

end Shortest

namespace Binary64

/-! ## The search -/

theorem rounds_of_contains {num factor code : Nat}
    (h : ((interval code).scale factor).contains (2 * num) = true) : Rounds num factor code := by
  by_cases heven : code % 2 = 0
  · have hclosed : (code % 2 == 0) = true := by simp [heven]
    simp only [Interval.contains, Interval.scale, interval, hclosed, if_true, Bool.and_eq_true,
      decide_eq_true_eq] at h
    exact ⟨h.1, h.2, by omega⟩
  · have hopen : (code % 2 == 0) = false := by simp [heven]
    simp only [Interval.contains, Interval.scale, interval, hopen, Bool.false_eq_true, if_false,
      Bool.and_eq_true, decide_eq_true_eq] at h
    exact ⟨h.1.le, h.2.le, fun _ => ⟨h.1.ne, h.2.ne⟩⟩

/-- A magnitude lies in its interval. -/
theorem rounds_units (code : Nat) {den : Nat} (hden : 0 < den) :
    Rounds (units code * den) den code := by
  have hstep := units_lt_next code
  have hbefore := units_pred_le code
  have hhigh := Nat.mul_lt_mul_of_pos_right hstep hden
  have hlow := Nat.mul_le_mul_right den hbefore
  refine ⟨by rw [Nat.add_mul]; omega, by rw [Nat.add_mul]; omega, fun hodd => ?_⟩
  have hlt := Nat.mul_lt_mul_of_pos_right (units_strictMono (show code - 1 < code by omega)) hden
  rw [Nat.add_mul, Nat.add_mul]
  omega

/-- The neighbour that is taken is in the interval. -/
theorem contains_of_nearest? {i : Interval} {step digits : Nat}
    (h : i.nearest? step = some digits) : i.contains (digits * step) = true := by
  simp only [Interval.nearest?] at h
  split at h
  · next hbelow habove =>
    split at h
    · cases h
      exact hbelow
    split at h
    · cases h
      exact habove
    · cases h
      split
      · exact hbelow
      · exact habove
  · next hbelow _ =>
    cases h
    exact hbelow
  · next habove =>
    cases h
    exact habove
  · cases h

theorem rounds_of_onGrid? {code digits : Nat} {k : Int}
    (h : (interval code).onGrid? k = some digits) :
    Rounds ((Shortest.mk digits k).num * one) (Shortest.mk digits k).den code := by
  rw [Interval.onGrid?] at h
  split at h
  · next hk =>
    have hcontains := contains_of_nearest? h
    rw [Shortest.num, Shortest.den, if_pos hk, if_pos hk]
    refine rounds_of_contains ?_
    rw [show 2 * (digits * Nat.pow 10 k.toNat * one) = digits * (Nat.pow 10 k.toNat * (2 * one)) by
      ring]
    simpa [Interval.scale] using hcontains
  · next hk =>
    have hcontains := contains_of_nearest? h
    rw [Shortest.num, Shortest.den, if_neg hk, if_neg hk]
    refine rounds_of_contains ?_
    rwa [show 2 * (digits * one) = digits * (2 * one) by ring]

/-- A number of halves of `2 ^ -n` is on the grid `10 ^ -n`. -/
theorem on_finest_grid (u n : Nat) :
    2 * u * Nat.pow 10 n / (2 * Nat.pow 2 n) * Nat.pow 2 n = u * Nat.pow 10 n := by
  have hten : Nat.pow 10 n = Nat.pow 5 n * Nat.pow 2 n := by
    rw [Nat.pow_eq, Nat.pow_eq, Nat.pow_eq, ← Nat.mul_pow]
  have hpos : 0 < 2 * Nat.pow 2 n := Nat.mul_pos (by decide) (Nat.pow_pos (by decide))
  rw [hten, show 2 * u * (Nat.pow 5 n * Nat.pow 2 n) = u * Nat.pow 5 n * (2 * Nat.pow 2 n) by ring,
    Nat.mul_div_cancel _ hpos]
  ring

/-- The search ends on the finest grid, which every magnitude is on. -/
theorem rounds_search (code : Nat) {n : Nat} (hn : 0 < n) (hone : one = Nat.pow 2 n) (steps : Nat)
    (k : Int) (h : k - steps = -n) :
    Rounds (((interval code).search steps k).num * one) ((interval code).search steps k).den code := by
  induction steps generalizing k with
  | zero =>
    obtain rfl : k = -n := by omega
    have hk : ¬(0 : Int) ≤ -n := by omega
    rw [Interval.search, Shortest.num, Shortest.den, if_neg hk, if_neg hk, Int.natAbs_neg,
      Int.natAbs_natCast, interval, hone, on_finest_grid]
    exact rounds_units code (Nat.pow_pos (by decide))
  | succ steps ih =>
    rw [Interval.search]
    split
    · next digits hgrid => exact rounds_of_onGrid? hgrid
    · exact ih (k - 1) (by omega)

/-- The exponent of the units is kept as a variable: powers this large are not computed. -/
theorem exists_one_eq : ∃ n, n = 1074 ∧ one = Nat.pow 2 n := by
  refine ⟨1074, rfl, ?_⟩
  delta one
  rfl

theorem shortest_rounds {code : Nat} (h : code ≠ 0) :
    Rounds ((shortest code).num * one) (shortest code).den code := by
  obtain ⟨n, hn, hone⟩ := exists_one_eq
  rw [shortest, if_neg h]
  exact rounds_search code (by omega) hone _ _ (by omega)

/-! ## Sizes -/

theorem pow_mul_pow {a b c d : Nat} (h : a + b = c + d) :
    Nat.pow 2 a * Nat.pow 2 b = Nat.pow 2 c * Nat.pow 2 d := by
  rw [Nat.pow_eq, Nat.pow_eq, Nat.pow_eq, Nat.pow_eq, ← Nat.pow_add, ← Nat.pow_add, h]

theorem one_pos : 0 < one := by
  obtain ⟨n, -, hone⟩ := exists_one_eq
  rw [hone]
  exact Nat.pow_pos (by decide)

/-- The first magnitude that is not finite. -/
theorem units_codes {m : Nat} (hm : m = 1024) : units codes = one * Nat.pow 2 m := by
  obtain ⟨n, hn, hone⟩ := exists_one_eq
  obtain ⟨q, hq, hcodes⟩ : ∃ q, q = 2046 ∧ codes = (q + 1) * binade + 0 := ⟨2046, rfl, rfl⟩
  rw [hcodes, units_of_binade binade_pos, Nat.add_zero, hone]
  exact pow_mul_pow (by omega)

/-- Decimals of finite magnitudes are at most `2 ^ 1024`. -/
theorem Rounds.num_le {num den code m : Nat} (h : Rounds (num * one) den code)
    (hcode : code < codes) (hm : m = 1024) : num ≤ Nat.pow 2 m * den := by
  have hlast : units code ≤ units codes := units_strictMono.monotone hcode.le
  have hnext : units (code + 1) ≤ units codes := units_strictMono.monotone hcode
  have hhigh := h.high
  have hbound : (units code + units (code + 1)) * den ≤ 2 * units codes * den :=
    Nat.mul_le_mul_right den (by omega)
  have hone : one * num ≤ one * (Nat.pow 2 m * den) := by
    rw [← Nat.mul_assoc, ← units_codes hm, Nat.mul_comm one]
    rw [Nat.mul_assoc] at hbound
    omega
  exact Nat.le_of_mul_le_mul_left hone one_pos

/-- Decimals of magnitudes other than zero are at least `2 ^ -1075`. -/
theorem Rounds.den_le {num den code m : Nat} (h : Rounds (num * one) den code) (hcode : code ≠ 0)
    (hm : m = 1075) : den ≤ num * Nat.pow 2 m := by
  obtain ⟨n, hn, hone⟩ := exists_one_eq
  have hpos : units 0 < units code := units_strictMono (Nat.pos_of_ne_zero hcode)
  have hlow := h.low
  have hden : 1 * den ≤ (units (code - 1) + units code) * den := Nat.mul_le_mul_right den (by omega)
  have hpow : Nat.pow 2 m = one * 2 := by
    rw [hone, show m = n + 1 by omega]
    rfl
  calc den ≤ 2 * (num * one) := by omega
    _ = num * Nat.pow 2 m := by
      rw [hpow]
      ring

/-- Every number has fewer powers of ten than it has digits. -/
theorem lt_pow_length (n : Nat) : n < Nat.pow 10 (Nat.toDigits 10 n).length :=
  (Nat.length_toDigits_le_iff (by decide) Nat.length_toDigits_pos).1 le_rfl

theorem pow_length_le {n : Nat} (h : n ≠ 0) : Nat.pow 10 ((Nat.toDigits 10 n).length - 1) ≤ n := by
  by_cases hlen : (Nat.toDigits 10 n).length - 1 = 0
  · rw [hlen]
    exact Nat.pos_of_ne_zero h
  · by_contra hlt
    have := (Nat.length_toDigits_le_iff (b := 10) (by decide) (Nat.pos_of_ne_zero hlen)).2
      (Nat.not_le.1 hlt)
    omega

theorem le_of_pow_le {a b : Nat} (h : Nat.pow 10 a ≤ Nat.pow 10 b) : a ≤ b :=
  (Nat.pow_le_pow_iff_right (by decide)).1 h

variable {s : Shortest} {code : Nat}

theorem digits_ne_zero (hcode : code ≠ 0) (h : Rounds (s.num * one) s.den code) :
    s.digits ≠ 0 := by
  intro hdigits
  have hnum : s.num = 0 := by
    rw [Shortest.num, hdigits]
    simp
  obtain ⟨m, hm⟩ : ∃ m, m = 1075 := ⟨_, rfl⟩
  have hle := h.den_le hcode hm
  rw [hnum, Nat.zero_mul] at hle
  exact Nat.not_le.2 s.den_pos hle

/-- A decimal of a magnitude other than zero is not taken for zero. -/
theorem not_first_lt (hcode : code ≠ 0) (h : Rounds (s.num * one) s.den code) :
    ¬s.exponent + (Nat.toDigits 10 s.digits).length < -330 := by
  intro hlt
  -- the exponents stay variables, so that no step computes the powers
  obtain ⟨m, k, hm, hk⟩ : ∃ m k, m = 1075 ∧ k = 324 := ⟨_, _, rfl, rfl⟩
  have hneg : ¬0 ≤ s.exponent := by omega
  have hle := h.den_le hcode hm
  rw [Shortest.num, Shortest.den, if_neg hneg, if_neg hneg] at hle
  have hpow : Nat.pow 2 m ≤ Nat.pow 10 k := by
    subst hm hk
    decide +kernel
  have hchain : Nat.pow 10 s.exponent.natAbs ≤ Nat.pow 10 ((Nat.toDigits 10 s.digits).length + k) :=
    calc Nat.pow 10 s.exponent.natAbs ≤ s.digits * Nat.pow 2 m := hle
      _ ≤ Nat.pow 10 (Nat.toDigits 10 s.digits).length * Nat.pow 10 k :=
        Nat.mul_le_mul (lt_pow_length s.digits).le hpow
      _ = Nat.pow 10 ((Nat.toDigits 10 s.digits).length + k) := (Nat.pow_add 10 _ k).symm
  have := le_of_pow_le hchain
  omega

/-- A decimal of a finite magnitude is not taken for infinity. -/
theorem not_lt_first (hfinite : code < codes) (hcode : code ≠ 0)
    (h : Rounds (s.num * one) s.den code) :
    ¬310 < s.exponent + (Nat.toDigits 10 s.digits).length := by
  obtain ⟨m, k, hm, hk⟩ : ∃ m k, m = 1024 ∧ k = 309 := ⟨_, _, rfl, rfl⟩
  have hle := h.num_le hfinite hm
  have hlen := pow_length_le (digits_ne_zero hcode h)
  have hpow : Nat.pow 2 m ≤ Nat.pow 10 k := by
    subst hm hk
    decide +kernel
  rw [Shortest.num, Shortest.den] at hle
  by_cases hexp : 0 ≤ s.exponent
  · rw [if_pos hexp, if_pos hexp, Nat.mul_one] at hle
    have hchain : Nat.pow 10 ((Nat.toDigits 10 s.digits).length - 1 + s.exponent.toNat) ≤
        Nat.pow 10 k :=
      calc Nat.pow 10 ((Nat.toDigits 10 s.digits).length - 1 + s.exponent.toNat)
          = Nat.pow 10 ((Nat.toDigits 10 s.digits).length - 1) * Nat.pow 10 s.exponent.toNat :=
            Nat.pow_add 10 _ _
        _ ≤ s.digits * Nat.pow 10 s.exponent.toNat := Nat.mul_le_mul_right _ hlen
        _ ≤ Nat.pow 10 k := hle.trans hpow
    have := le_of_pow_le hchain
    omega
  · rw [if_neg hexp, if_neg hexp] at hle
    have hchain : Nat.pow 10 ((Nat.toDigits 10 s.digits).length - 1) ≤
        Nat.pow 10 (k + s.exponent.natAbs) :=
      calc Nat.pow 10 ((Nat.toDigits 10 s.digits).length - 1) ≤ s.digits := hlen
        _ ≤ Nat.pow 2 m * Nat.pow 10 s.exponent.natAbs := hle
        _ ≤ Nat.pow 10 k * Nat.pow 10 s.exponent.natAbs := Nat.mul_le_mul_right _ hpow
        _ = Nat.pow 10 (k + s.exponent.natAbs) := (Nat.pow_add 10 _ _).symm
    have := le_of_pow_le hchain
    omega

/-! ## Reading -/

theorem ofCode_of_lt (negative : Bool) (h : code < codes) :
    ofCode negative code = .finite negative ⟨code, h⟩ := dif_pos h

/-- A decimal in the interval of a finite magnitude is read as this magnitude. -/
theorem ofDecimal_of_rounds (negative : Bool) (hfinite : code < codes) (hcode : code ≠ 0)
    (h : Rounds (s.num * one) s.den code) :
    ofDecimal negative s.digits s.exponent = .finite negative ⟨code, hfinite⟩ := by
  have hsmall : ¬(s.digits = 0 ∨ s.exponent + (Nat.toDigits 10 s.digits).length < -330) := by
    rintro (hdigits | hlt)
    · exact digits_ne_zero hcode h hdigits
    · exact not_first_lt hcode h hlt
  have hratio : ofDecimal negative s.digits s.exponent = ofRatio negative s.num s.den := by
    rw [ofDecimal, if_neg hsmall, if_neg (not_lt_first hfinite hcode h), Shortest.num, Shortest.den]
    split <;> rfl
  rw [hratio, ofRatio, ofUnits, nearestCode_of_rounds s.den_pos h, ofCode_of_lt negative hfinite]

/-- A finite number is read back from its shortest decimal. -/
theorem ofDecimal_shortest (negative : Bool) (code : Fin codes) :
    ofDecimal negative (shortest code).digits (shortest code).exponent = .finite negative code := by
  by_cases hcode : code.val = 0
  · rw [hcode, shortest, if_pos rfl, ofDecimal, if_pos (.inl rfl), ofCode_of_lt negative (by decide)]
    exact congrArg (Binary64.finite negative) (Fin.ext hcode.symm)
  · exact ofDecimal_of_rounds negative code.isLt hcode (shortest_rounds hcode)

end Binary64

end TradeFlow
