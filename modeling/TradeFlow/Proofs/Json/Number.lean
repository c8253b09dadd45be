import TradeFlow.Json.Reader
import TradeFlow.Json.Writer
import TradeFlow.Proofs.Number.Whole

/-!
Numbers of JSON are read back.

A number is spelled as an integer, the digits behind a point and an exponent, of which the last two
may be missing. What is proved:

1. `number?_spelled`: a spelled number is read up to where it ends.
2. `exists_magnitude`: the text of a magnitude spells a decimal that is read as this magnitude,
   wherever its point stands.
3. `exists_double` and `toList_intText`: so a finite double is read back from its text, and an integer
   of 64 bits is read as the nearest double.
-/

namespace TradeFlow

namespace Json

/-! ## Digits -/

/-- A text in front of which a number ends. -/
def EndsNumber (rest : List Char) : Prop :=
  ∀ c ∈ rest.head?, c.isDigit = false ∧ c ≠ '.' ∧ c ≠ 'e' ∧ c ≠ 'E'

theorem digitsValue_eq (before : Nat) (digits : List Char) :
    digitsValue before digits = Nat.ofDigitChars 10 digits before := by
  rw [digitsValue, Nat.ofDigitChars_eq_foldl]
  congr 1
  funext n c
  rw [Nat.mul_comm]
  rfl

variable {digits rest : List Char}

theorem digits?_append (hne : digits ≠ []) (hdigits : ∀ c ∈ digits, c.isDigit = true)
    (hrest : ∀ c ∈ rest.head?, c.isDigit = false) :
    digits? (digits ++ rest) = some (digits, rest) := by
  have htake : rest.takeWhile Char.isDigit = [] := by
    cases rest with
    | nil => rfl
    | cons c rest => simp [hrest c rfl]
  have hdrop : rest.dropWhile Char.isDigit = rest := by
    cases rest with
    | nil => rfl
    | cons c rest => simp [hrest c rfl]
  rw [digits?, List.takeWhile_append_of_pos hdigits, List.dropWhile_append_of_pos hdigits, htake,
    hdrop, List.append_nil]
  simp [hne]

/-- Digits without a leading zero, unless zero is all there is. -/
def IsInteger (digits : List Char) : Prop :=
  digits = ['0'] ∨ digits ≠ [] ∧ (∀ c ∈ digits, c.isDigit = true) ∧ digits.head? ≠ some '0'

theorem IsInteger.exists_cons (h : IsInteger digits) :
    ∃ c tail, c.isDigit = true ∧ digits = c :: tail := by
  rcases h with rfl | ⟨hne, hdigits, -⟩
  · exact ⟨'0', [], rfl, rfl⟩
  · obtain ⟨c, tail, rfl⟩ := List.exists_cons_of_ne_nil hne
    exact ⟨c, tail, hdigits c List.mem_cons_self, rfl⟩

theorem integer?_append (h : IsInteger digits) (hrest : ∀ c ∈ rest.head?, c.isDigit = false) :
    integer? (digits ++ rest) = some (digits, rest) := by
  rcases h with rfl | ⟨hne, hdigits, hhead⟩
  · rfl
  · rw [integer?]
    · exact digits?_append hne hdigits hrest
    · intro tail heq
      cases digits with
      | nil => exact hne rfl
      | cons c digits =>
        rw [List.cons_append, List.cons.injEq] at heq
        exact hhead (by rw [List.head?_cons, heq.1])

/-! ## Points and exponents -/

/-- The digits behind a point, if there are any. -/
def pointText (fraction : List Char) : List Char :=
  if fraction.isEmpty then [] else '.' :: fraction

/-- The exponent, if there is one. -/
def powerText : Option Int → List Char
  | none => []
  | some e => 'e' :: (if e < 0 then '-' else '+') :: natText e.natAbs

theorem isDigit_natText (n : Nat) : ∀ c ∈ natText n, c.isDigit = true :=
  fun _ => Nat.isDigit_of_mem_toDigits (by decide) (by decide)

/-- An integer is one line. -/
theorem newline_not_mem_intText (i : Int) : '\n' ∉ (intText i).toList := by
  have hdigits : '\n' ∉ natText i.natAbs := by
    intro hmem
    have hdigit := isDigit_natText _ _ hmem
    simp at hdigit
  rw [intText, String.toList_ofList]
  split
  · rw [List.mem_cons, not_or]
    exact ⟨by decide, hdigits⟩
  · exact hdigits

theorem fraction?_append {fraction : List Char} (hfraction : ∀ c ∈ fraction, c.isDigit = true)
    (hrest : ∀ c ∈ rest.head?, c.isDigit = false ∧ c ≠ '.') :
    fraction? (pointText fraction ++ rest) = some (fraction, rest) := by
  by_cases hne : fraction = []
  · subst hne
    show fraction? rest = _
    cases rest with
    | nil => rfl
    | cons c rest =>
      rw [fraction?]
      rintro _ ⟨⟩
      exact (hrest '.' rfl).2 rfl
  · rw [pointText, if_neg (by simpa using hne)]
    exact digits?_append hne hfraction fun c hc => (hrest c hc).1

theorem digitsValue_natText (n : Nat) : digitsValue 0 (natText n) = n := by
  rw [digitsValue_eq]
  exact Nat.ofDigitChars_ten_toDigits

theorem exponent?_append (power : Option Int) (hrest : EndsNumber rest) :
    exponent? (powerText power ++ rest) = some (power, rest) := by
  cases power with
  | none =>
    show exponent? rest = _
    cases rest with
    | nil => rfl
    | cons c rest =>
      have hc := hrest c rfl
      exact if_neg fun h => h.elim hc.2.2.1 hc.2.2.2
  | some e =>
    have hdigits : digits? (natText e.natAbs ++ rest) = some (natText e.natAbs, rest) :=
      digits?_append Nat.toDigits_ne_nil (isDigit_natText _) fun c hc => (hrest c hc).1
    by_cases hneg : e < 0
    · rw [powerText, if_pos hneg]
      show (digits? (natText e.natAbs ++ rest)).map _ = _
      have hvalue : -(digitsValue 0 (natText e.natAbs) : Int) = e := by
        rw [digitsValue_natText]
        omega
      rw [hdigits]
      exact congrArg (fun n => some (some n, rest)) hvalue
    · rw [powerText, if_neg hneg]
      show (digits? (natText e.natAbs ++ rest)).map _ = _
      have hvalue : (digitsValue 0 (natText e.natAbs) : Int) = e := by
        rw [digitsValue_natText]
        omega
      rw [hdigits]
      exact congrArg (fun n => some (some n, rest)) hvalue

/-- What follows the integer of a spelled number does not begin with a digit. -/
theorem not_isDigit_pointText (fraction : List Char) (power : Option Int) (hrest : EndsNumber rest) :
    ∀ c ∈ (pointText fraction ++ (powerText power ++ rest)).head?, c.isDigit = false := by
  intro c hc
  cases fraction with
  | cons d fraction =>
    obtain rfl : '.' = c := Option.some.inj hc
    rfl
  | nil =>
    cases power with
    | some e =>
      obtain rfl : 'e' = c := Option.some.inj hc
      rfl
    | none => exact (hrest c hc).1

theorem not_isDigit_powerText (power : Option Int) (hrest : EndsNumber rest) :
    ∀ c ∈ (powerText power ++ rest).head?, c.isDigit = false ∧ c ≠ '.' := by
  intro c hc
  cases power with
  | some e =>
    obtain rfl : 'e' = c := Option.some.inj hc
    exact ⟨rfl, by decide⟩
  | none => exact ⟨(hrest c hc).1, (hrest c hc).2.1⟩

/-! ## Spellings -/

/-- A number as it is spelled. -/
structure Spelling where
  integer : List Char
  fraction : List Char
  power : Option Int
  isInteger : IsInteger integer
  isDigit : ∀ c ∈ fraction, c.isDigit = true

namespace Spelling

def text (s : Spelling) : List Char := s.integer ++ (pointText s.fraction ++ powerText s.power)

/-- The number that is read from a spelling. -/
def number (s : Spelling) (negative : Bool) : JsonNumber :=
  ⟨negative, digitsValue (digitsValue 0 s.integer) s.fraction,
    s.power.getD 0 - s.fraction.length, s.fraction.isEmpty && s.power.isNone⟩

/-- The decimal that a spelling stands for. -/
def decimal (s : Spelling) : Shortest := ⟨(s.number false).digits, (s.number false).exponent⟩

end Spelling

/-- A minus sign, if there is one. -/
def signText (negative : Bool) : List Char := if negative then ['-'] else []

/-- A spelled number is read up to where it ends. -/
theorem number?_spelled (s : Spelling) (negative : Bool) (hrest : EndsNumber rest) :
    number? (signText negative ++ s.text ++ rest) = some (s.number negative, rest) := by
  have hinteger := integer?_append s.isInteger (not_isDigit_pointText s.fraction s.power hrest)
  have hfraction := fraction?_append s.isDigit (not_isDigit_powerText s.power hrest)
  have hpower := exponent?_append s.power hrest
  rw [List.append_assoc, Spelling.text, List.append_assoc, List.append_assoc, Spelling.number]
  cases negative with
  | true =>
    rw [signText, if_pos rfl, List.singleton_append, number?]
    simp only [hinteger, hfraction, hpower, Option.bind_eq_bind, Option.bind_some,
      Option.pure_def]
  | false =>
    rw [signText, if_neg (by decide), List.nil_append, number?]
    · simp only [hinteger, hfraction, hpower, Option.bind_eq_bind, Option.bind_some,
        Option.pure_def]
    · intro tail heq
      obtain ⟨c, digits, hc, hinteger⟩ := s.isInteger.exists_cons
      rw [hinteger] at heq
      obtain rfl : c = '-' := (List.cons.inj heq).1
      cases hc

/-! ## Texts of numbers -/

theorem exists_natText (n : Nat) : ∃ c tail, natText n = c :: tail :=
  List.exists_cons_of_ne_nil Nat.toDigits_ne_nil

theorem head?_natText {n : Nat} (h : n ≠ 0) : (natText n).head? ≠ some '0' := by
  induction n using Nat.strongRecOn with
  | ind n ih =>
    by_cases hsmall : n < 10
    · have hone : ∀ d < 10, d ≠ 0 → Nat.digitChar d ≠ '0' := by decide
      rw [natText, Nat.toDigits_of_lt_base hsmall, List.head?_cons]
      exact fun heq => hone n hsmall h (Option.some.inj heq)
    · have hprefix := ih (n / 10) (by omega) (by omega)
      obtain ⟨c, tail, htext⟩ := exists_natText (n / 10)
      have happend : natText n = natText (n / 10) ++ [Nat.digitChar (n % 10)] :=
        Nat.toDigits_of_base_le (by decide) (by omega)
      rw [htext] at hprefix
      rw [happend, htext]
      exact hprefix

theorem isInteger_natText (n : Nat) : IsInteger (natText n) := by
  by_cases h : n = 0
  · subst h
    exact .inl rfl
  · exact .inr ⟨Nat.toDigits_ne_nil, isDigit_natText n, head?_natText h⟩

/-- Zeros at the end multiply by powers of ten. -/
theorem digitsValue_zeros (before k : Nat) :
    digitsValue before (List.replicate k '0') = before * Nat.pow 10 k := by
  induction k generalizing before with
  | zero => exact (Nat.mul_one before).symm
  | succ k ih =>
    show digitsValue (before * 10 + 0) (List.replicate k '0') = before * (Nat.pow 10 k * 10)
    rw [ih]
    ring

theorem digitsValue_append (before : Nat) (digits more : List Char) :
    digitsValue before (digits ++ more) = digitsValue (digitsValue before digits) more :=
  List.foldl_append

/-- Spellings of an integer. -/
def Spelling.ofNat (n : Nat) : Spelling := ⟨natText n, [], none, isInteger_natText n, nofun⟩

theorem Spelling.number_ofNat (n : Nat) (negative : Bool) :
    (Spelling.ofNat n).number negative = ⟨negative, n, 0, true⟩ := by
  rw [number]
  congr 1
  exact digitsValue_natText n

/-! ## Magnitudes -/

/-- A spelling of a decimal, perhaps with zeros in place of its exponent. -/
structure Spelling.Spells (s : Spelling) (d : Shortest) (text : List Char) : Prop where
  text_eq : text = s.text
  num_eq : s.decimal.num = d.num
  den_eq : s.decimal.den = d.den

/-- A number without a leading zero keeps its digits when it is cut in front of one of them. -/
theorem isInteger_take {n k : Nat} (hn : n ≠ 0) (hk : 0 < k) : IsInteger ((natText n).take k) := by
  obtain ⟨c, tail, htext⟩ := exists_natText n
  have hhead := head?_natText hn
  rw [htext] at hhead
  obtain ⟨k, rfl⟩ := Nat.exists_eq_succ_of_ne_zero hk.ne'
  refine .inr ⟨?_, fun c hc => isDigit_natText n c (List.mem_of_mem_take hc), ?_⟩
  · rw [htext, List.take_succ_cons]
    exact List.cons_ne_nil _ _
  · rw [htext, List.take_succ_cons]
    exact hhead

theorem isDigit_drop (n k : Nat) : ∀ c ∈ (natText n).drop k, c.isDigit = true :=
  fun c hc => isDigit_natText n c (List.mem_of_mem_drop hc)

theorem digitsValue_take_drop (n k : Nat) :
    digitsValue (digitsValue 0 ((natText n).take k)) ((natText n).drop k) = n := by
  rw [← digitsValue_append, List.take_append_drop, digitsValue_natText]

theorem length_natText_pos (n : Nat) : 0 < (natText n).length :=
  List.length_pos_iff.2 Nat.toDigits_ne_nil

theorem Spelling.Spells.of_decimal {s : Spelling} {d : Shortest} {text : List Char}
    (htext : text = s.text) (hdecimal : s.decimal = d) : s.Spells d text :=
  ⟨htext, congrArg Shortest.num hdecimal, congrArg Shortest.den hdecimal⟩

theorem exists_scientific {n : Nat} (hn : n ≠ 0) (e : Int) :
    ∃ s : Spelling, s.Spells ⟨n, e⟩
      (NumberFormat.scientific (natText n) (e + (natText n).length - 1) 1) := by
  refine ⟨⟨(natText n).take 1, (natText n).drop 1, some (e + (natText n).length - 1),
    isInteger_take hn Nat.one_pos, isDigit_drop n 1⟩, .of_decimal ?_ ?_⟩
  · have hwidth : ∀ k, 1 - (natText k).length = 0 := fun k => by
      have := length_natText_pos k
      omega
    simp only [NumberFormat.scientific, hwidth, List.replicate_zero, List.nil_append,
      Spelling.text, pointText, powerText, List.append_assoc]
  · have hlength := length_natText_pos n
    rw [Spelling.decimal, Spelling.number, digitsValue_take_drop, List.length_drop]
    congr 1
    simp only [Option.getD_some]
    omega

/-- The point stands in front of all digits. -/
theorem exists_small (n zeros : Nat) :
    ∃ s : Spelling, s.Spells ⟨n, -(zeros + (natText n).length : Nat)⟩
      ('0' :: '.' :: (List.replicate zeros '0' ++ natText n)) := by
  refine ⟨⟨['0'], List.replicate zeros '0' ++ natText n, none, .inl rfl, ?_⟩,
    .of_decimal ?_ ?_⟩
  · intro c hc
    rcases List.mem_append.1 hc with hc | hc
    · rw [List.eq_of_mem_replicate hc]
      rfl
    · exact isDigit_natText n c hc
  · rw [Spelling.text, pointText, if_neg]
    · simp [powerText]
    · simp [natText, Nat.toDigits_ne_nil]
  · rw [Spelling.decimal, Spelling.number, digitsValue_append, digitsValue_zeros]
    congr 1
    · show digitsValue (0 * _) _ = n
      rw [Nat.zero_mul, digitsValue_natText]
    · simp only [Option.getD_none, List.length_append, List.length_replicate]
      omega

/-- The point stands behind all digits, so that zeros take the place of the exponent. -/
theorem exists_whole {n : Nat} (zeros : Nat) (hn : n ≠ 0 ∨ zeros = 0) :
    ∃ s : Spelling, s.Spells ⟨n, zeros⟩ (natText n ++ List.replicate zeros '0') := by
  have hinteger : IsInteger (natText n ++ List.replicate zeros '0') := by
    rcases hn with hn | rfl
    · refine .inr ⟨by simp [natText, Nat.toDigits_ne_nil], ?_, ?_⟩
      · intro c hc
        rcases List.mem_append.1 hc with hc | hc
        · exact isDigit_natText n c hc
        · rw [List.eq_of_mem_replicate hc]
          rfl
      · obtain ⟨c, tail, htext⟩ := exists_natText n
        have hhead := head?_natText hn
        rw [htext] at hhead ⊢
        exact hhead
    · rw [List.replicate_zero, List.append_nil]
      exact isInteger_natText n
  have hdecimal :
      Spelling.decimal ⟨natText n ++ List.replicate zeros '0', [], none, hinteger, nofun⟩ =
        ⟨n * Nat.pow 10 zeros, 0⟩ := by
    rw [Spelling.decimal, Spelling.number, digitsValue_append, digitsValue_natText,
      digitsValue_zeros]
    rfl
  refine ⟨⟨natText n ++ List.replicate zeros '0', [], none, hinteger, nofun⟩, ?_, ?_, ?_⟩
  · simp [Spelling.text, pointText, powerText]
  · rw [hdecimal, Shortest.num, Shortest.num, if_pos le_rfl, if_pos (Int.natCast_nonneg _)]
    exact Nat.mul_one _
  · rw [hdecimal, Shortest.den, Shortest.den, if_pos le_rfl, if_pos (Int.natCast_nonneg _)]

/-- The point stands between two digits. -/
theorem exists_between {n k : Nat} (hn : n ≠ 0) (hk : 0 < k) (hlt : k < (natText n).length) :
    ∃ s : Spelling, s.Spells ⟨n, k - (natText n).length⟩
      ((natText n).take k ++ '.' :: (natText n).drop k) := by
  refine ⟨⟨(natText n).take k, (natText n).drop k, none, isInteger_take hn hk, isDigit_drop n k⟩,
    .of_decimal ?_ ?_⟩
  · rw [Spelling.text, pointText, if_neg]
    · simp [powerText]
    · simpa using hlt
  · rw [Spelling.decimal, Spelling.number, digitsValue_take_drop, List.length_drop]
    congr 1
    simp only [Option.getD_none]
    omega

theorem exists_positional {n : Nat} {e : Int} (hn : n ≠ 0 ∨ e = 0) :
    ∃ s : Spelling, s.Spells ⟨n, e⟩
      (NumberFormat.positional (natText n) (e + (natText n).length)) := by
  have hlength := length_natText_pos n
  simp only [NumberFormat.positional]
  split
  · next hwhole =>
    have he : e = -((e + (natText n).length).natAbs + (natText n).length : Nat) := by omega
    have hsmall := exists_small n (e + (natText n).length).natAbs
    rwa [← he] at hsmall
  split
  · next hwhole hdigits =>
    have he : e = ((e + (natText n).length).toNat - (natText n).length : Nat) := by omega
    have hwhole := exists_whole (n := n) ((e + (natText n).length).toNat - (natText n).length)
      (by omega)
    rwa [← he] at hwhole
  · next hwhole hdigits =>
    have hn : n ≠ 0 := by
      rintro rfl
      have : (natText 0).length = 1 := rfl
      omega
    have he : e = (e + (natText n).length).toNat - (natText n).length := by omega
    have hbetween := exists_between hn (k := (e + (natText n).length).toNat) (by omega) (by omega)
    rwa [← he] at hbetween

/-! ## Doubles and integers -/

/-- The text of a magnitude spells a decimal that is read as this magnitude. -/
theorem exists_magnitude (code : Fin Binary64.codes) :
    ∃ s : Spelling, NumberFormat.object.magnitude code = s.text ∧
      ∀ negative, (s.number negative).toBinary64 = .finite negative code := by
  by_cases hcode : code.val = 0
  · refine ⟨.ofNat 0, by rw [hcode]; decide, fun negative => ?_⟩
    have hzero := Binary64.ofDecimal_shortest negative code
    rw [hcode, Binary64.shortest, if_pos rfl] at hzero
    rw [Spelling.number_ofNat]
    exact hzero
  · have hrounds := Binary64.shortest_rounds hcode
    have hdigits : (Binary64.shortest code).digits ≠ 0 := Binary64.digits_ne_zero hcode hrounds
    obtain ⟨s, hs⟩ : ∃ s : Spelling, s.Spells (Binary64.shortest code)
        (NumberFormat.object.magnitude code) := by
      simp only [NumberFormat.magnitude, Int.sub_add_cancel]
      split
      · exact exists_scientific hdigits _
      · exact exists_positional (.inl hdigits)
    refine ⟨s, hs.text_eq, fun negative => ?_⟩
    rw [← hs.num_eq, ← hs.den_eq] at hrounds
    exact Binary64.ofDecimal_of_rounds negative code.isLt hcode hrounds

/-- The number that is read from the text of a double. -/
def doubleNumber (x : Binary64) : JsonNumber :=
  ((number? (NumberFormat.object.text x).toList).map (·.1)).getD ⟨false, 0, 0, true⟩

/-- The text of a finite double spells a number that is read as this double. -/
theorem exists_double {x : Binary64} (h : x.isFinite = true) :
    ∃ (s : Spelling) (negative : Bool),
      (NumberFormat.object.text x).toList = signText negative ++ s.text ∧
        s.number negative = doubleNumber x ∧ (doubleNumber x).toBinary64 = x := by
  obtain ⟨negative, code, rfl⟩ := Binary64.exists_eq_finite h
  obtain ⟨s, hmagnitude, hvalue⟩ := exists_magnitude code
  have hsign : (negative && (NumberFormat.object.signedZero || code.val != 0)) = negative :=
    Bool.and_true negative
  have htext : (NumberFormat.object.text (.finite negative code)).toList =
      signText negative ++ s.text := by
    rw [NumberFormat.text, hsign, hmagnitude]
    exact String.toList_ofList
  have hend : EndsNumber [] := nofun
  have hread := number?_spelled s negative hend
  rw [List.append_nil, ← htext] at hread
  have hnumber : doubleNumber (.finite negative code) = s.number negative := by
    rw [doubleNumber, hread]
    rfl
  exact ⟨s, negative, htext, hnumber.symm, by rw [hnumber]; exact hvalue negative⟩

theorem toBinary64_doubleNumber {x : Binary64} (h : x.isFinite = true) :
    (doubleNumber x).toBinary64 = x := by
  obtain ⟨_, _, _, _, hvalue⟩ := exists_double h
  exact hvalue

theorem toList_intText (i : Int) :
    (intText i).toList = signText (decide (i < 0)) ++ (Spelling.ofNat i.natAbs).text := by
  have htext : (Spelling.ofNat i.natAbs).text = natText i.natAbs := List.append_nil _
  rw [intText, htext, String.toList_ofList]
  by_cases h : i < 0
  · rw [if_pos h, decide_eq_true h]
    rfl
  · rw [if_neg h, decide_eq_false h]
    rfl

/-- The number that is read from the digits of an integer. -/
def intNumber (i : Int) : JsonNumber := ⟨decide (i < 0), i.natAbs, 0, true⟩

theorem toInt?_intNumber (i : Int) : (intNumber i).toInt? = some i := by
  simp only [intNumber, JsonNumber.toInt?, if_true, decide_eq_true_eq, Option.some.injEq]
  split <;> omega

theorem toBinary64_intNumber {i : Int} (h : Value.fitsInt64 i = true) :
    (intNumber i).toBinary64 = Binary64.ofInt i := Binary64.ofDecimal_natAbs h

end Json

end TradeFlow
