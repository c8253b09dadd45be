import Mathlib.Order.Monotone.Basic
import Mathlib.Tactic.Ring
import TradeFlow.Number.Binary64

/-!
Rounding to the nearest magnitude.

The magnitudes grow with their codes, from one to the next by a step that doubles from binade to
binade. What is proved:

1. `units_strictMono`: codes are in the order of their magnitudes.
2. `codeBelow_eq_iff`: `codeBelow` gives the only code whose magnitude and its successor enclose a
   number of units.
3. `nearestCode_of_rounds`: a ratio in the interval of a magnitude, halfway to each of its
   neighbours, is rounded to this magnitude.
4. `Rounds.lt_next`: ratios in the intervals of two neighbours are in their order.
-/

namespace TradeFlow.Binary64

/-! ## Magnitudes -/

/-- The distance from a magnitude to the next one. -/
def step (code : Nat) : Nat := Nat.pow 2 (code / binade - 1)

theorem binade_pos : 0 < binade := by decide

theorem step_pos (code : Nat) : 0 < step code := Nat.pow_pos (by decide)

/-- In the first binade a magnitude is its code. -/
theorem units_of_lt {code : Nat} (h : code < binade) : units code = code := if_pos h

/-- Behind the first binade a magnitude is its place in the binade, counted from the end of the
first one, in steps of the binade. -/
theorem units_of_binade {q r : Nat} (hr : r < binade) :
    units ((q + 1) * binade + r) = (binade + r) * Nat.pow 2 q := by
  have hdiv : ((q + 1) * binade + r) / binade = q + 1 := by
    rw [Nat.add_comm, Nat.add_mul_div_right _ _ binade_pos, Nat.div_eq_of_lt hr, Nat.zero_add]
  have hmod : ((q + 1) * binade + r) % binade = r := by
    rw [Nat.add_comm, Nat.add_mul_mod_self_right, Nat.mod_eq_of_lt hr]
  have hge : ¬(q + 1) * binade + r < binade := by
    rw [Nat.add_mul, Nat.one_mul]
    exact Nat.not_lt.2 (by omega)
  rw [units, if_neg hge, hdiv, hmod, Nat.add_sub_cancel]

theorem step_of_binade {q r : Nat} (hr : r < binade) :
    step ((q + 1) * binade + r) = Nat.pow 2 q := by
  rw [step, Nat.add_comm, Nat.add_mul_div_right _ _ binade_pos, Nat.div_eq_of_lt hr, Nat.zero_add,
    Nat.add_sub_cancel]

/-- Every code lies in the first binade or in a later one. -/
theorem code_cases (code : Nat) :
    code < binade ∨ ∃ q r, r < binade ∧ code = (q + 1) * binade + r := by
  by_cases h : code < binade
  · exact .inl h
  · refine .inr ⟨code / binade - 1, code % binade, Nat.mod_lt _ binade_pos, ?_⟩
    have hpos : 0 < code / binade := Nat.div_pos (Nat.not_lt.1 h) binade_pos
    rw [Nat.sub_add_cancel hpos, Nat.mul_comm, Nat.div_add_mod]

theorem units_add_one (code : Nat) : units (code + 1) = units code + step code := by
  rcases code_cases code with h | ⟨q, r, hr, rfl⟩
  · have hstep : step code = 1 := by rw [step, Nat.div_eq_of_lt h]
    rw [units_of_lt h, hstep]
    by_cases hnext : code + 1 < binade
    · exact units_of_lt hnext
    · have heq : code + 1 = (0 + 1) * binade + 0 := by omega
      rw [heq, units_of_binade binade_pos]
      simp
  · rw [step_of_binade hr, units_of_binade hr]
    by_cases hnext : r + 1 < binade
    · rw [Nat.add_assoc, units_of_binade hnext]
      ring
    · have hlast : r + 1 = binade := by omega
      have heq : (q + 1) * binade + r + 1 = (q + 1 + 1) * binade + 0 := by
        rw [Nat.add_assoc, hlast]
        ring
      calc units ((q + 1) * binade + r + 1) = (binade + 0) * Nat.pow 2 (q + 1) := by
            rw [heq, units_of_binade binade_pos]
        _ = (binade + (r + 1)) * Nat.pow 2 q := by
            rw [hlast, Nat.pow_eq, Nat.pow_eq, Nat.pow_succ]
            ring
        _ = (binade + r) * Nat.pow 2 q + Nat.pow 2 q := by ring

theorem units_strictMono : StrictMono units :=
  strictMono_nat_of_lt_succ fun code => by
    rw [units_add_one]
    exact Nat.lt_add_of_pos_right (step_pos code)

theorem units_lt_next (code : Nat) : units code < units (code + 1) :=
  units_strictMono (Nat.lt_succ_self code)

theorem units_pred_le (code : Nat) : units (code - 1) ≤ units code :=
  units_strictMono.monotone (Nat.sub_le code 1)

/-! ## The magnitude below -/

theorem codeBelow_of_lt {u : Nat} (h : u < binade) : codeBelow u = u := by
  have hlog : u.log2 - 52 = 0 := by
    by_cases hu : u = 0
    · rw [hu]
      rfl
    · have := (Nat.log2_lt hu).2 h
      omega
  simp [codeBelow, hlog]

/-- Behind the first binade, the leading 53 bits of a number of units make the code. -/
theorem codeBelow_of_le {u : Nat} (h : binade ≤ u) :
    ∃ q r, r < binade ∧ u / Nat.pow 2 q = binade + r ∧ codeBelow u = (q + 1) * binade + r := by
  have hu : u ≠ 0 := by
    have := binade_pos
    omega
  -- `q` is how far the number is shifted to leave 53 bits
  have hlog : 52 ≤ u.log2 := (Nat.le_log2 hu).2 h
  obtain ⟨q, hq⟩ := Nat.exists_eq_add_of_le hlog
  have hpow : 0 < Nat.pow 2 q := Nat.pow_pos (by decide)
  have hlow : binade ≤ u / Nat.pow 2 q := by
    rw [Nat.le_div_iff_mul_le hpow]
    calc binade * Nat.pow 2 q = 2 ^ u.log2 := by rw [hq, Nat.pow_add]; rfl
      _ ≤ u := Nat.log2_self_le hu
  have hhigh : u / Nat.pow 2 q < binade + binade := by
    rw [Nat.div_lt_iff_lt_mul hpow]
    calc u < 2 ^ (u.log2 + 1) := Nat.lt_log2_self
      _ = (binade + binade) * Nat.pow 2 q := by
        rw [hq, Nat.pow_succ, Nat.pow_add, Nat.pow_eq, binade, Nat.pow_eq]
        ring
  refine ⟨q, u / Nat.pow 2 q - binade, by omega, by omega, ?_⟩
  have hshift : u.log2 - 52 = q := by omega
  rw [codeBelow, hshift, Nat.add_mul, Nat.one_mul]
  omega

theorem codeBelow_spec (u : Nat) :
    units (codeBelow u) ≤ u ∧ u < units (codeBelow u + 1) := by
  by_cases h : u < binade
  · have hstep : step u = 1 := by rw [step, Nat.div_eq_of_lt h]
    rw [codeBelow_of_lt h, units_add_one, units_of_lt h, hstep]
    omega
  · obtain ⟨q, r, hr, hquot, hcode⟩ := codeBelow_of_le (Nat.not_lt.1 h)
    rw [hcode, units_add_one, units_of_binade hr, step_of_binade hr, ← hquot]
    refine ⟨Nat.div_mul_le_self u _, ?_⟩
    calc u = Nat.pow 2 q * (u / Nat.pow 2 q) + u % Nat.pow 2 q := (Nat.div_add_mod u _).symm
      _ < Nat.pow 2 q * (u / Nat.pow 2 q) + Nat.pow 2 q :=
        Nat.add_lt_add_left (Nat.mod_lt _ (Nat.pow_pos (by decide))) _
      _ = u / Nat.pow 2 q * Nat.pow 2 q + Nat.pow 2 q := by rw [Nat.mul_comm]

/-- The magnitude below is the only one that encloses a number of units with its successor. -/
theorem codeBelow_eq_iff {u code : Nat} :
    codeBelow u = code ↔ units code ≤ u ∧ u < units (code + 1) := by
  obtain ⟨hle, hlt⟩ := codeBelow_spec u
  constructor
  · rintro rfl
    exact ⟨hle, hlt⟩
  · rintro ⟨hle', hlt'⟩
    have h₁ := units_strictMono.lt_iff_lt.1 (hle.trans_lt hlt')
    have h₂ := units_strictMono.lt_iff_lt.1 (hle'.trans_lt hlt)
    omega

/-! ## Rounding -/

/-- A ratio of units lies in the interval that is rounded to a magnitude. The interval reaches
halfway to the neighbours, and its ends belong to it if the code is even. -/
structure Rounds (num den code : Nat) : Prop where
  low : (units (code - 1) + units code) * den ≤ 2 * num
  high : 2 * num ≤ (units code + units (code + 1)) * den
  inside : code % 2 = 1 →
    (units (code - 1) + units code) * den ≠ 2 * num ∧
      2 * num ≠ (units code + units (code + 1)) * den

/-- The ratio is enclosed by the magnitude and one of its neighbours. -/
theorem Rounds.codeBelow_cases {num den code : Nat} (hden : 0 < den) (h : Rounds num den code) :
    codeBelow (num / den) = code ∨ 0 < code ∧ codeBelow (num / den) = code - 1 := by
  have hstep := units_lt_next code
  have hbefore := units_pred_le code
  have hhigh : num / den < units (code + 1) := by
    rw [Nat.div_lt_iff_lt_mul hden]
    have := Nat.mul_lt_mul_of_pos_right hstep hden
    have := h.high
    rw [Nat.add_mul] at this
    omega
  by_cases hvalue : units code ≤ num / den
  · exact .inl (codeBelow_eq_iff.2 ⟨hvalue, hhigh⟩)
  · have hpos : 0 < code := by
      rcases Nat.eq_zero_or_pos code with rfl | hpos
      · exact absurd (Nat.zero_le _) hvalue
      · exact hpos
    refine .inr ⟨hpos, codeBelow_eq_iff.2 ⟨?_, ?_⟩⟩
    · rw [Nat.le_div_iff_mul_le hden]
      have := Nat.mul_le_mul_right den hbefore
      have := h.low
      rw [Nat.add_mul] at this
      omega
    · rw [Nat.sub_add_cancel hpos]
      exact Nat.not_le.1 hvalue

/-- What lies in the interval of a magnitude is rounded to it. -/
theorem nearestCode_of_rounds {num den code : Nat} (hden : 0 < den) (h : Rounds num den code) :
    nearestCode num den = code := by
  obtain ⟨hlow, hhigh, hinside⟩ := h
  rcases Rounds.codeBelow_cases hden ⟨hlow, hhigh, hinside⟩ with hbelow | ⟨hpos, hbelow⟩
  · simp only [nearestCode, hbelow]
    split
    · rfl
    split
    · omega
    split
    · rfl
    · -- halfway above an odd code, where the end is left out
      exact absurd (by omega) (hinside (by omega)).2
  · simp only [nearestCode, hbelow, Nat.sub_add_cancel hpos]
    split
    · omega
    split
    · rfl
    split
    · -- halfway below an odd code
      exact absurd (by omega) (hinside (by omega)).1
    · rfl

/-- The intervals of two neighbours touch at most in one point, which then belongs to one of them. -/
theorem Rounds.lt_next {num num' den den' code : Nat} (hden : 0 < den) (hden' : 0 < den')
    (h : Rounds num den code) (h' : Rounds num' den' (code + 1)) : num * den' < num' * den := by
  obtain ⟨-, hhigh, hinside⟩ := h
  obtain ⟨hlow, -, hinside'⟩ := h'
  rw [Nat.add_sub_cancel] at hlow hinside'
  have hleft := Nat.mul_le_mul_right den' hhigh
  have hright := Nat.mul_le_mul_right den hlow
  have hmiddle : (units code + units (code + 1)) * den * den' =
      (units code + units (code + 1)) * den' * den := by ring
  -- the point between them is left out by the odd one of the two codes
  rcases Nat.mod_two_eq_zero_or_one code with heven | hodd
  · have hstrict := lt_of_le_of_ne hlow (hinside' (by omega)).1
    have := Nat.mul_lt_mul_of_pos_right hstrict hden
    rw [Nat.mul_assoc 2] at hleft this
    omega
  · have hstrict := lt_of_le_of_ne hhigh (hinside hodd).2
    have := Nat.mul_lt_mul_of_pos_right hstrict hden'
    rw [Nat.mul_assoc 2] at hright this
    omega

/-- A magnitude is rounded to itself. -/
theorem nearestCode_units (code : Nat) : nearestCode (units code) 1 = code := by
  have hstep := units_lt_next code
  have hbefore := units_pred_le code
  refine nearestCode_of_rounds Nat.one_pos ⟨by omega, by omega, fun hodd => ?_⟩
  have hlt : units (code - 1) < units code := units_strictMono (by omega)
  omega

end TradeFlow.Binary64
