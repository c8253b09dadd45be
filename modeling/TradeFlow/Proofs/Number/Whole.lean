import TradeFlow.Overlay
import TradeFlow.Proofs.Number.Shortest

/-!
Whole numbers as doubles.

An integer of 64 bits becomes the nearest double, which is finite. What is proved:

1. `toInt?_ofInt_iff`: an integer is kept exactly if some double stands for it.
2. `exists_toInt?_of_le`: every integer of at most 53 bits is kept.
3. `ofDecimal_natAbs`: an integer of 64 bits is read from its digits as the nearest double.
4. `isFinite_ofInt`: this double is finite.
-/

namespace TradeFlow.Binary64

theorem exists_eq_finite {x : Binary64} (h : x.isFinite = true) :
    ∃ negative code, x = .finite negative code := by
  cases x with
  | nan => cases h
  | infinity negative => cases h
  | finite negative code => exact ⟨negative, code, rfl⟩

theorem nearestCode_le (num den : Nat) : nearestCode num den ≤ codeBelow (num / den) + 1 := by
  simp only [nearestCode]
  split
  · omega
  split
  · omega
  split <;> omega

/-- A double that stands for an integer has its magnitude. -/
theorem units_of_toInt? {negative : Bool} {code : Fin codes} {i : Int}
    (h : toInt? (.finite negative code) = some i) : units code = i.natAbs * one := by
  simp only [toInt?] at h
  split at h
  · next hwhole =>
    have habs : i.natAbs = units code / one := by
      generalize units code / one = q at h ⊢
      split at h <;> simp only [Option.some.injEq] at h <;> omega
    rw [habs, Nat.div_mul_cancel (Nat.dvd_of_mod_eq_zero hwhole)]
  · cases h

/-- A double that stands for an integer is the one that the integer becomes. -/
theorem ofInt_of_toInt? {x : Binary64} {i : Int} (h : x.toInt? = some i) :
    (ofInt i).toInt? = some i := by
  cases x with
  | nan => cases h
  | infinity negative => cases h
  | finite negative code =>
    have hunits : i.natAbs * one = units code := (units_of_toInt? h).symm
    rw [ofInt, ofRatio, ofUnits, hunits, nearestCode_units, ofCode_of_lt _ code.isLt]
    simp only [toInt?, ← hunits, Nat.mul_mod_left, if_true, Nat.mul_div_cancel _ one_pos,
      decide_eq_true_eq, Option.some.injEq]
    split <;> omega

/-- An integer is kept exactly if some double stands for it. -/
theorem toInt?_ofInt_iff {i : Int} : (ofInt i).toInt? = some i ↔ ∃ x : Binary64, x.toInt? = some i :=
  ⟨fun h => ⟨_, h⟩, fun ⟨_, h⟩ => ofInt_of_toInt? h⟩

/-- Significands of 53 bits have a code at every scale that is finite. -/
theorem exists_units {a j : Nat} (hlow : binade ≤ a) (hhigh : a < 2 * binade) (hj : j ≤ 2045) :
    ∃ code : Fin codes, units code = a * Nat.pow 2 j := by
  obtain ⟨r, hr⟩ := Nat.exists_eq_add_of_le hlow
  have hcode : (j + 1) * binade + r < codes := by
    have hscale : (j + 2) * binade ≤ codes := Nat.mul_le_mul_right binade (by omega)
    have hsplit : (j + 2) * binade = (j + 1) * binade + binade := by ring
    omega
  exact ⟨⟨_, hcode⟩, by rw [units_of_binade (by omega), hr]⟩

/-- A magnitude of whole units stands for an integer of either sign. -/
theorem exists_toInt?_of_units {i : Int} {code : Fin codes} (h : units code = i.natAbs * one) :
    ∃ x : Binary64, x.toInt? = some i := by
  refine ⟨.finite (decide (i < 0)) code, ?_⟩
  simp only [toInt?, h, Nat.mul_mod_left, if_true, Nat.mul_div_cancel _ one_pos, decide_eq_true_eq,
    Option.some.injEq]
  split <;> omega

/-- Every integer of at most 53 bits is a double. -/
theorem exists_toInt?_of_le {i : Int} (h : i.natAbs ≤ Nat.pow 2 53) :
    ∃ x : Binary64, x.toInt? = some i := by
  obtain ⟨n, hn, hone⟩ := exists_one_eq
  by_cases hzero : i.natAbs = 0
  · have hunits : units (⟨0, by decide⟩ : Fin codes) = i.natAbs * one := by
      rw [hzero, Nat.zero_mul]
      rfl
    exact exists_toInt?_of_units hunits
  by_cases hlast : i.natAbs = Nat.pow 2 53
  · obtain ⟨code, hcode⟩ := exists_units (a := binade) (j := n + 1) le_rfl (by decide) (by omega)
    refine exists_toInt?_of_units (hcode.trans ?_)
    rw [hlast, hone]
    exact pow_mul_pow (by omega)
  · -- the number is scaled to 53 bits
    obtain ⟨k, hk⟩ : ∃ k, k = i.natAbs.log2 := ⟨_, rfl⟩
    have hlow : Nat.pow 2 k ≤ i.natAbs := hk ▸ Nat.log2_self_le hzero
    have hhigh : i.natAbs < Nat.pow 2 (k + 1) := hk ▸ Nat.lt_log2_self
    have hbits : k < 53 := hk ▸ (Nat.log2_lt hzero).2 (lt_of_le_of_ne h hlast)
    have hscale : Nat.pow 2 k * Nat.pow 2 (52 - k) = binade := by
      rw [Nat.pow_eq, Nat.pow_eq, ← Nat.pow_add, Nat.add_sub_cancel' (by omega)]
    have hlt : i.natAbs * Nat.pow 2 (52 - k) < 2 * binade := by
      have hdouble : Nat.pow 2 (k + 1) * Nat.pow 2 (52 - k) = 2 * binade := by
        rw [← hscale, Nat.pow_eq, Nat.pow_eq, Nat.pow_eq, Nat.pow_succ]
        ring
      exact hdouble ▸ Nat.mul_lt_mul_of_pos_right hhigh (Nat.pow_pos (by decide))
    obtain ⟨code, hcode⟩ := exists_units (j := k + n - 52)
      (hscale ▸ Nat.mul_le_mul_right _ hlow) hlt (by omega)
    refine exists_toInt?_of_units (hcode.trans ?_)
    have hexponent : 52 - k + (k + n - 52) = n := by omega
    rw [hone, Nat.mul_assoc, Nat.pow_eq, Nat.pow_eq, ← Nat.pow_add, hexponent, Nat.pow_eq]

theorem natAbs_le_of_fitsInt64 {i : Int} (h : Value.fitsInt64 i = true) :
    i.natAbs ≤ Nat.pow 2 63 := by
  simp only [Value.fitsInt64, Bool.and_eq_true, decide_eq_true_eq] at h
  omega

/-- Ratios up to `2 ^ 63` have finite neighbours. -/
theorem nearestCode_lt {n : Nat} (h : n ≤ Nat.pow 2 63) : nearestCode (n * one) 1 < codes := by
  obtain ⟨m, hm⟩ : ∃ m, m = 1023 := ⟨_, rfl⟩
  obtain ⟨k, hk, hcodes⟩ : ∃ k, k = 2045 ∧ codes = (k + 1) * binade + 0 + binade := ⟨2045, rfl, rfl⟩
  obtain ⟨e, he, hone⟩ := exists_one_eq
  have hlast : units ((k + 1) * binade + 0) = Nat.pow 2 m * one := by
    rw [units_of_binade binade_pos, Nat.add_zero, hone]
    exact pow_mul_pow (by omega)
  have hlt : n * one < units ((k + 1) * binade + 0) := by
    rw [hlast]
    refine Nat.mul_lt_mul_of_pos_right (h.trans_lt ?_) one_pos
    exact Nat.pow_lt_pow_right (by decide) (by omega)
  have hbelow := (codeBelow_spec (n * one)).1.trans_lt hlt
  have hle := nearestCode_le (n * one) 1
  rw [Nat.div_one] at hle
  have := units_strictMono.lt_iff_lt.1 hbelow
  have := binade_pos
  omega

theorem isFinite_ofInt {i : Int} (h : Value.fitsInt64 i = true) : (ofInt i).isFinite = true := by
  rw [ofInt, ofRatio, ofUnits, ofCode_of_lt _ (nearestCode_lt (natAbs_le_of_fitsInt64 h))]
  rfl

/-- An integer of 64 bits is read from its digits as the nearest double. -/
theorem ofDecimal_natAbs {i : Int} (h : Value.fitsInt64 i = true) :
    ofDecimal (decide (i < 0)) i.natAbs 0 = ofInt i := by
  have hle := natAbs_le_of_fitsInt64 h
  have hlen : (Nat.toDigits 10 i.natAbs).length ≤ 19 :=
    (Nat.length_toDigits_le_iff (by decide) (by decide)).2 (hle.trans_lt (by decide))
  by_cases hzero : i = 0
  · subst hzero
    rw [ofDecimal, if_pos (.inl rfl), ofInt, ofRatio, ofUnits]
    have hcode : nearestCode 0 1 = 0 := nearestCode_units 0
    rw [Int.natAbs_zero, Nat.zero_mul, hcode]
  · rw [ofDecimal, if_neg, if_neg, if_pos le_rfl, ofInt]
    · simp
    · omega
    · omega

end TradeFlow.Binary64
