import TradeFlow.Text.Literal

/-!
Literals are read back.

A way of escaping is readable if each character is read back from its escape, whatever follows. What
is proved:

1. `Readable.readInside?`: a literal with readable escapes is read back up to its closing quote.
2. `readable_escape`: the escapes of literals are readable.
3. `all_isInLine_write`: a literal has no control character and no separator of lines.
-/

namespace TradeFlow.Literal

/-- What is read from a literal with one more character in front. -/
def push (c : Char) (read : List Char × List Char) : List Char × List Char := (c :: read.1, read.2)

/-- Every character is read back from its escape. -/
def Readable (escapeChar : Char → List Char) : Prop :=
  ∀ c rest, readInside? (escapeChar c ++ rest) = (readInside? rest).map (push c)

theorem Readable.readInside? {escapeChar : Char → List Char} (h : Readable escapeChar)
    (text rest : List Char) :
    readInside? (text.flatMap escapeChar ++ '"' :: rest) = some (text, rest) := by
  induction text with
  | nil => rw [List.flatMap_nil, List.nil_append, Literal.readInside?]
  | cons c text ih =>
    rw [List.flatMap_cons, List.append_assoc, h, ih]
    rfl

theorem Readable.read? {escapeChar : Char → List Char} (h : Readable escapeChar)
    (text rest : List Char) :
    read? (writeWith escapeChar text ++ rest) = some (text, rest) := by
  show Literal.readInside? (text.flatMap escapeChar ++ ['"'] ++ rest) = _
  rw [List.append_assoc]
  exact h.readInside? text rest

/-! ## Escapes -/

variable {c d : Char} {rest : List Char}

/-- A character that needs no escape. -/
theorem readInside?_plain (hquote : c ≠ '"') (hslash : c ≠ '\\') (hcontrol : ¬c.toNat < 0x20) :
    readInside? (c :: rest) = (readInside? rest).map (push c) := by
  rw [readInside?]
  · simp [hcontrol, hslash]
    rfl
  · simp [hquote]
  · simp [hslash]
  · simp [hslash]

theorem readInside?_short (hu : c ≠ 'u') (h : shortEscape? c = some d) :
    readInside? ('\\' :: c :: rest) = (readInside? rest).map (push d) := by
  rw [readInside?]
  · simp [h]
    rfl
  · simp [hu]

/-- The number written with exactly four digits. -/
def hexText? : List Char → Option Nat
  | [a, b, c, d] => hexUnit? a b c d
  | _ => none

theorem hexText?_hexDigits {n : Nat} (h : n < 0x40 ∨ n = 0x2028 ∨ n = 0x2029) :
    hexText? (hexDigits 4 n) = some n := by
  have hsmall : ∀ k < 0x40, hexText? (hexDigits 4 k) = some k := by decide
  rcases h with h | rfl | rfl
  · exact hsmall n h
  · decide
  · decide

/-- No character is half of a surrogate pair. -/
theorem not_surrogate (c : Char) :
    isHighSurrogate c.toNat = false ∧ isLowSurrogate c.toNat = false := by
  have hvalid : c.toNat < 0xd800 ∨ 0xdfff < c.toNat ∧ c.toNat < 0x110000 := c.valid
  simp only [isHighSurrogate, isLowSurrogate, Bool.and_eq_false_iff, decide_eq_false_iff_not]
  omega

theorem unitChar_toNat (c : Char) : unitChar c.toNat = c := by
  rw [unitChar, (not_surrogate c).1, (not_surrogate c).2]
  exact Char.ofNat_toNat c

/-- The number of a character is read from its escape. -/
theorem readInside?_hex {digits : List Char} (h : hexText? digits = some c.toNat) :
    readInside? ('\\' :: 'u' :: digits ++ rest) = (readInside? rest).map (push c) := by
  -- what follows is not taken for the other half of a pair
  have hpartner : partner? c.toNat rest = none := by
    unfold partner?
    split
    · rw [(not_surrogate c).1]
      rfl
    · rfl
  match digits, h with
  | [w, x, y, z], h =>
    have hunit : hexUnit? w x y z = some c.toNat := h
    show readInside? ('\\' :: 'u' :: w :: x :: y :: z :: rest) = _
    rw [readInside?]
    simp only [hunit, hpartner, unitChar_toNat]
    rfl

theorem readable_escape : Readable escape := by
  intro c rest
  simp only [escape]
  split
  · next h =>
    subst h
    exact readInside?_short (by decide) rfl
  split
  · next h =>
    subst h
    exact readInside?_short (by decide) rfl
  split
  · next h =>
    obtain rfl : c = Char.ofNat 8 := by rw [← h, Char.ofNat_toNat]
    exact readInside?_short (by decide) rfl
  split
  · next h =>
    obtain rfl : c = Char.ofNat 12 := by rw [← h, Char.ofNat_toNat]
    exact readInside?_short (by decide) rfl
  split
  · next h =>
    subst h
    exact readInside?_short (by decide) rfl
  split
  · next h =>
    subst h
    exact readInside?_short (by decide) rfl
  split
  · next h =>
    subst h
    exact readInside?_short (by decide) rfl
  split
  · next h =>
    refine readInside?_hex (hexText?_hexDigits ?_)
    simp only [Bool.or_eq_true, decide_eq_true_eq, beq_iff_eq] at h
    omega
  · next hquote hslash _ _ _ _ _ h =>
    refine readInside?_plain hquote hslash ?_
    simp only [Bool.or_eq_true, decide_eq_true_eq, not_or] at h
    exact h.1.1

/-! ## The characters of a literal -/

/-- Whether a character neither controls anything nor separates lines. -/
def isInLine (c : Char) : Bool := 0x20 ≤ c.toNat && c.toNat != 0x2028 && c.toNat != 0x2029

theorem isInLine_iff :
    isInLine c = true ↔ 0x20 ≤ c.toNat ∧ c.toNat ≠ 0x2028 ∧ c.toNat ≠ 0x2029 := by
  rw [isInLine, Bool.and_eq_true, Bool.and_eq_true, decide_eq_true_eq, bne_iff_ne, bne_iff_ne,
    and_assoc]

theorem all_isInLine_hexDigits {n : Nat} (h : n < 0x20 ∨ n = 0x2028 ∨ n = 0x2029) :
    ('\\' :: 'u' :: hexDigits 4 n).all isInLine = true := by
  have hsmall : ∀ k < 0x20, ('\\' :: 'u' :: hexDigits 4 k).all isInLine = true := by decide
  rcases h with h | rfl | rfl
  · exact hsmall n h
  · decide
  · decide

theorem all_isInLine_escape (c : Char) : (escape c).all isInLine = true := by
  unfold escape
  repeat (split; · rfl)
  split
  · next h => exact all_isInLine_hexDigits (by simpa [or_assoc] using h)
  · next h =>
    -- the character stands for itself
    simp only [Bool.or_eq_true, decide_eq_true_eq, beq_iff_eq, not_or] at h
    rw [List.all_cons, List.all_nil, Bool.and_true, isInLine_iff]
    exact ⟨Nat.le_of_not_lt h.1.1, h.1.2, h.2⟩

theorem all_isInLine_write (text : List Char) : (write text).all isInLine = true := by
  have hinside : (text.flatMap escape).all isInLine = true := by
    rw [List.all_flatMap, List.all_eq_true]
    exact fun c _ => all_isInLine_escape c
  rw [write, writeWith, List.all_append, List.all_cons, hinside]
  rfl

theorem toList_ofString (s : String) : (ofString s).toList = write s.toList := String.toList_ofList

end TradeFlow.Literal
