import TradeFlow.Proofs.Number.Whole

/-!
The order of doubles.

A double that is a number has a rank on the line of units, and infinities have their ranks beyond those
of all finite doubles. What is proved:

1. `lt_eq`: numbers are ordered by their ranks, so that the smaller and the larger one are what they are
   among integers (`min_lt_eq_false_iff`, `lt_max_eq_false_iff`).
2. `eq_of_rank_eq`: numbers with one sign and one rank are the same.
3. `rank_ofNat` and `ofNat_add_ofNat`: up to `2 ^ 53` natural numbers are kept, and so are their sums.
-/

namespace TradeFlow.Binary64

variable {a b c : Binary64} {m n : Nat}

/-- Where a double stands, in units; infinities stand beyond all finite magnitudes. -/
def rank : Binary64 → Int
  | .nan => 0
  | .infinity negative => signedUnits negative codes
  | .finite negative code => signedUnits negative code

theorem signedUnits_true (code : Nat) : signedUnits true code = -(units code : Int) := by
  rw [signedUnits, if_pos rfl]

theorem signedUnits_false (code : Nat) : signedUnits false code = units code := by
  rw [signedUnits, if_neg Bool.false_ne_true]

/-! With signs, the larger one of two magnitudes decides. -/

section Signs

variable {p q : Bool} {x y : Nat}

theorem signedUnits_lt_iff_left (h : units y < units x) :
    signedUnits p x < signedUnits q y ↔ p = true := by
  cases p <;> cases q <;> simp only [signedUnits_true, signedUnits_false] <;> simp <;> omega

theorem signedUnits_lt_iff_right (h : units x < units y) :
    signedUnits p x < signedUnits q y ↔ q = false := by
  cases p <;> cases q <;> simp only [signedUnits_true, signedUnits_false] <;> simp <;> omega

theorem signedUnits_lt_iff_signs (h : 0 < units x) :
    signedUnits p x < signedUnits q x ↔ p = true ∧ q = false := by
  cases p <;> cases q <;> simp only [signedUnits_true, signedUnits_false] <;> simp
  omega

end Signs

/-- Numbers are ordered by their ranks. -/
theorem lt_eq (ha : a ≠ .nan) (hb : b ≠ .nan) : a.lt b = decide (rank a < rank b) := by
  have hpos : 0 < units codes := by
    have hstrict : units 0 < units codes := units_strictMono (by decide)
    omega
  have hbound : ∀ code : Fin codes, units code < units codes :=
    fun code => units_strictMono code.isLt
  cases a with
  | nan => exact absurd rfl ha
  | infinity p =>
    cases b with
    | nan => exact absurd rfl hb
    | infinity q =>
      rw [lt, rank, rank, Bool.eq_iff_iff, decide_eq_true_iff, signedUnits_lt_iff_signs hpos,
        Bool.and_eq_true, Bool.not_eq_true']
    | finite q y =>
      rw [lt, rank, rank, Bool.eq_iff_iff, decide_eq_true_iff, signedUnits_lt_iff_left (hbound y)]
  | finite p x =>
    cases b with
    | nan => exact absurd rfl hb
    | infinity q =>
      rw [lt, rank, rank, Bool.eq_iff_iff, decide_eq_true_iff, signedUnits_lt_iff_right (hbound x),
        Bool.not_eq_true']
    | finite q y => rfl

theorem lt_eq_false_iff (ha : a ≠ .nan) (hb : b ≠ .nan) : a.lt b = false ↔ rank b ≤ rank a := by
  rw [lt_eq ha hb, decide_eq_false_iff_not, not_lt]

theorem lt_nan (a : Binary64) : a.lt .nan = false := by
  cases a <;> rfl

theorem infinity_lt (a : Binary64) : (infinity false).lt a = false := by
  cases a <;> rfl

/-- Apart from the two zeros, numbers are known by their ranks. -/
theorem eq_of_rank_eq (ha : a ≠ .nan) (hb : b ≠ .nan) (hsign : a.isNegative = b.isNegative)
    (hrank : rank a = rank b) : a = b := by
  have hbound : ∀ code : Fin codes, units code < units codes :=
    fun code => units_strictMono code.isLt
  have hinj : ∀ {negative : Bool} {x y : Nat},
      signedUnits negative x = signedUnits negative y → units x = units y := by
    intro negative x y h
    cases negative <;> simp [signedUnits] at h <;> exact h
  cases a with
  | nan => exact absurd rfl ha
  | infinity p =>
    cases b with
    | nan => exact absurd rfl hb
    | infinity q =>
      obtain rfl : p = q := hsign
      rfl
    | finite q y =>
      obtain rfl : p = q := hsign
      exact absurd (hinj hrank) (hbound y).ne'
  | finite p x =>
    cases b with
    | nan => exact absurd rfl hb
    | infinity q =>
      obtain rfl : p = q := hsign
      exact absurd (hinj hrank) (hbound x).ne
    | finite q y =>
      obtain rfl : p = q := hsign
      rw [Fin.ext (units_strictMono.injective (hinj hrank))]

/-! ## The smaller and the larger one -/

theorem rank_of_isZero (h : a.isZero = true) : rank a = 0 := by
  cases a with
  | nan => rfl
  | infinity negative => cases h
  | finite negative code =>
    have hcode : code.val = 0 := by simpa [isZero] using h
    have hunits : units code = 0 := by rw [hcode]; rfl
    cases negative <;> simp [rank, signedUnits, hunits]

/-- The smaller one of two numbers is one of them, and none is below it. -/
theorem min_cases (ha : a ≠ .nan) (hb : b ≠ .nan) :
    min a b = a ∧ rank a ≤ rank b ∨ min a b = b ∧ rank b ≤ rank a := by
  have hle : ∀ {x : Binary64}, x ≠ .nan → rank (.infinity true) ≤ rank x := by
    intro x hx
    have hlt := lt_eq hx (b := .infinity true) (by simp)
    cases x <;> simp_all [lt]
  unfold min
  split
  · next h =>
    rcases h with rfl | rfl
    · exact .inl ⟨rfl, hle hb⟩
    · exact .inr ⟨rfl, hle ha⟩
  rw [if_neg (by simp [ha, hb])]
  split
  · next h =>
    obtain ⟨hza, hzb⟩ := Bool.and_eq_true_iff.1 h
    have := rank_of_isZero hza
    have := rank_of_isZero hzb
    split
    · exact .inl ⟨rfl, by omega⟩
    · exact .inr ⟨rfl, by omega⟩
  · rw [lt_eq ha hb]
    split
    · next h =>
      have := of_decide_eq_true h
      exact .inl ⟨rfl, by omega⟩
    · next h =>
      have : ¬ rank a < rank b := by simpa using h
      exact .inr ⟨rfl, by omega⟩

/-- The larger one of two numbers is one of them, and none is above it. -/
theorem max_cases (ha : a ≠ .nan) (hb : b ≠ .nan) :
    max a b = a ∧ rank b ≤ rank a ∨ max a b = b ∧ rank a ≤ rank b := by
  have hle : ∀ {x : Binary64}, x ≠ .nan → rank x ≤ rank (.infinity false) := by
    intro x hx
    have hlt := lt_eq (a := .infinity false) (by simp) hx
    cases x <;> simp_all [lt]
  unfold max
  split
  · next h =>
    rcases h with rfl | rfl
    · exact .inl ⟨rfl, hle hb⟩
    · exact .inr ⟨rfl, hle ha⟩
  rw [if_neg (by simp [ha, hb])]
  split
  · next h =>
    obtain ⟨hza, hzb⟩ := Bool.and_eq_true_iff.1 h
    have := rank_of_isZero hza
    have := rank_of_isZero hzb
    split
    · exact .inr ⟨rfl, by omega⟩
    · exact .inl ⟨rfl, by omega⟩
  · rw [lt_eq hb ha]
    split
    · next h =>
      have := of_decide_eq_true h
      exact .inl ⟨rfl, by omega⟩
    · next h =>
      have : ¬ rank b < rank a := by simpa using h
      exact .inr ⟨rfl, by omega⟩

theorem min_ne_nan (ha : a ≠ .nan) (hb : b ≠ .nan) : min a b ≠ .nan := by
  rcases min_cases ha hb with ⟨h, -⟩ | ⟨h, -⟩
  · rwa [h]
  · rwa [h]

theorem max_ne_nan (ha : a ≠ .nan) (hb : b ≠ .nan) : max a b ≠ .nan := by
  rcases max_cases ha hb with ⟨h, -⟩ | ⟨h, -⟩
  · rwa [h]
  · rwa [h]

/-- The smaller one of two numbers is not below a bound exactly when none of the two is. -/
theorem min_lt_eq_false_iff (ha : a ≠ .nan) (hb : b ≠ .nan) :
    (min a b).lt c = false ↔ a.lt c = false ∧ b.lt c = false := by
  by_cases hc : c = .nan
  · simp [hc, lt_nan]
  rw [lt_eq_false_iff ha hc, lt_eq_false_iff hb hc]
  rcases min_cases ha hb with ⟨h, hle⟩ | ⟨h, hle⟩
  · rw [h, lt_eq_false_iff ha hc]
    omega
  · rw [h, lt_eq_false_iff hb hc]
    omega

/-- The larger one of two numbers is not above a bound exactly when none of the two is. -/
theorem lt_max_eq_false_iff (ha : a ≠ .nan) (hb : b ≠ .nan) :
    c.lt (max a b) = false ↔ c.lt a = false ∧ c.lt b = false := by
  by_cases hc : c = .nan
  · simp [hc, lt]
  rw [lt_eq_false_iff hc ha, lt_eq_false_iff hc hb]
  rcases max_cases ha hb with ⟨h, hle⟩ | ⟨h, hle⟩
  · rw [h, lt_eq_false_iff hc ha]
    omega
  · rw [h, lt_eq_false_iff hc hb]
    omega

/-! ## Natural numbers -/

theorem ofCode_ne_nan (negative : Bool) (code : Nat) : ofCode negative code ≠ .nan := by
  unfold ofCode
  split <;> simp

theorem isNegative_ofCode (negative : Bool) (code : Nat) :
    (ofCode negative code).isNegative = negative := by
  unfold ofCode
  split <;> rfl

theorem ofNat_ne_nan (n : Nat) : ofNat n ≠ .nan := ofCode_ne_nan _ _

theorem isNegative_ofNat (n : Nat) : (ofNat n).isNegative = false := isNegative_ofCode _ _

theorem isNegative_of_rank_pos (h : 0 < rank a) : a.isNegative = false := by
  cases a with
  | nan => rfl
  | infinity negative =>
    cases negative
    · rfl
    · rw [rank, signedUnits_true] at h
      omega
  | finite negative code =>
    cases negative
    · rfl
    · rw [rank, signedUnits_true] at h
      omega

theorem rank_nonneg (h : a.isNegative = false) : 0 ≤ rank a := by
  cases a with
  | nan => exact le_rfl
  | infinity negative =>
    obtain rfl : negative = false := h
    exact Int.natCast_nonneg _
  | finite negative code =>
    obtain rfl : negative = false := h
    exact Int.natCast_nonneg _

/-- Up to `2 ^ 53` every natural number is a double. -/
theorem exists_ofNat_eq (h : n ≤ Nat.pow 2 53) :
    ∃ code : Fin codes, ofNat n = .finite false code ∧ units code = n * one := by
  obtain ⟨x, hx⟩ := exists_toInt?_of_le (i := n) (by simpa using h)
  cases x with
  | nan => cases hx
  | infinity negative => cases hx
  | finite negative code =>
    have hunits : units code = n * one := by simpa using units_of_toInt? hx
    refine ⟨code, ?_, hunits⟩
    rw [ofNat, ofRatio, ofUnits, ← hunits, nearestCode_units, ofCode_of_lt _ code.isLt]

theorem rank_ofNat (h : n ≤ Nat.pow 2 53) : rank (ofNat n) = (n * one : Nat) := by
  obtain ⟨code, hcode, hunits⟩ := exists_ofNat_eq h
  rw [hcode, rank, signedUnits, if_neg (by simp), hunits]

/-- Up to `2 ^ 53` natural numbers are told apart. -/
theorem ofNat_inj (hm : m ≤ Nat.pow 2 53) (hn : n ≤ Nat.pow 2 53) (h : ofNat m = ofNat n) :
    m = n := by
  have hrank := congrArg rank h
  rw [rank_ofNat hm, rank_ofNat hn, Nat.cast_inj] at hrank
  exact Nat.eq_of_mul_eq_mul_right one_pos hrank

theorem lt_ofNat_eq_false_iff (hm : m ≤ Nat.pow 2 53) (hn : n ≤ Nat.pow 2 53) :
    (ofNat m).lt (ofNat n) = false ↔ n ≤ m := by
  rw [lt_eq_false_iff (ofNat_ne_nan m) (ofNat_ne_nan n), rank_ofNat hm, rank_ofNat hn, Int.ofNat_le,
    Nat.mul_le_mul_right_iff one_pos]

/-- Up to `2 ^ 53` the sum of two natural numbers is exact. -/
theorem ofNat_add_ofNat (h : m + n ≤ Nat.pow 2 53) : ofNat m + ofNat n = ofNat (m + n) := by
  obtain ⟨x, hx, hxunits⟩ := exists_ofNat_eq (n := m) (by omega)
  obtain ⟨y, hy, hyunits⟩ := exists_ofNat_eq (n := n) (by omega)
  have hsum : signedUnits false x + signedUnits false y = ((m + n) * one : Nat) := by
    rw [signedUnits_false, signedUnits_false, hxunits, hyunits, Nat.add_mul, Nat.cast_add]
  rw [hx, hy]
  show add (.finite false x) (.finite false y) = _
  rw [add, hsum]
  split
  · next hzero =>
    have hnone : (m + n) * one = 0 := by exact_mod_cast hzero
    have hcode : nearestCode 0 1 = 0 := nearestCode_units 0
    rw [ofNat, ofRatio, ofUnits, hnone, hcode]
    rfl
  · rw [Int.natAbs_natCast, decide_eq_false (by omega)]
    rfl

/-- A finite number added to a number gives a number. -/
theorem add_ne_nan (ha : a ≠ .nan) (hb : b.isFinite = true) : a + b ≠ .nan := by
  show add a b ≠ .nan
  obtain ⟨q, y, rfl⟩ := exists_eq_finite hb
  cases a with
  | nan => exact absurd rfl ha
  | infinity p => simp [add]
  | finite p x =>
    rw [add]
    split
    · exact ofCode_ne_nan _ _
    · exact ofCode_ne_nan _ _

end TradeFlow.Binary64
