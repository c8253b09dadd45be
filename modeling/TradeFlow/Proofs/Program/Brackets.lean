import TradeFlow.Program.Basic
import TradeFlow.Proofs.Text.Lines

/-!
The brackets of a program.

A text is read from left to right. Brackets count outside of string literals and of comments that run
to the end of their line; an opening bracket has to be closed by its partner. What is proved:

1. `Brackets.read_under`: what lies below the brackets that a text needs does not matter; and
   `Brackets.exists_read_of_two`: a text that can be read above two different brackets needs neither.
2. `Brackets.read_indentChars`: indentation does not matter either.
3. `Brackets.neutral_literal`: a string literal leaves the brackets alone, whatever it says.
4. `Block.Plain.moves`: so does a block whose parts are plain and whose fields are harmless.
5. `Program.read_source`: the brackets of a program are those of its body, inside of three others.
-/

namespace TradeFlow

namespace Brackets

/-! ## Reading -/

/-- Where in a text a character stands. -/
inductive Mode where
  | code
  /-- After a slash, which may begin a comment. -/
  | slash
  | comment
  | string
  /-- After a backslash in a string. -/
  | escape
  deriving DecidableEq, Repr

/-- What a character does to the closing brackets that are due. -/
inductive Effect where
  | keeps
  | opens (closer : Char)
  | closes (closer : Char)
  deriving DecidableEq, Repr

/-- The closing brackets that are due after a character. A closing bracket that is not the next one
due is refused. -/
def Effect.apply : Effect → List Char → Option (List Char)
  | .keeps, due => some due
  | .opens d, due => some (d :: due)
  | .closes c, d :: due => if c = d then some due else none
  | .closes _, [] => none

def bracket (c : Char) : Effect :=
  if c = '(' then .opens ')'
  else if c = '[' then .opens ']'
  else if c = '\x7b' then .opens '\x7d'
  else if c = ')' ∨ c = ']' ∨ c = '\x7d' then .closes c
  else .keeps

def inCode (c : Char) : Mode × Effect :=
  if c = '"' then (.string, .keeps)
  else if c = '/' then (.slash, .keeps)
  else (.code, bracket c)

/-- Whether a comment ends at a character. -/
def isLineBreak (c : Char) : Bool :=
  c == '\n' || c == '\r' || c.toNat == 0x2028 || c.toNat == 0x2029

/-- The mode after a character, and what the character does. A string must not run over the end of a
line. -/
def scan : Mode → Char → Option (Mode × Effect)
  | .code, c => some (inCode c)
  | .slash, c => some (if c = '/' then (.comment, .keeps) else inCode c)
  | .comment, c => some (if isLineBreak c then .code else .comment, .keeps)
  | .string, c =>
    if c = '"' then some (.code, .keeps)
    else if c = '\\' then some (.escape, .keeps)
    else if c = '\n' ∨ c = '\r' then none
    else some (.string, .keeps)
  | .escape, _ => some (.string, .keeps)

/-- What has been read: the mode, and the closing brackets that are due, the next one first. -/
structure State where
  mode : Mode
  due : List Char
  deriving DecidableEq, Repr

def step (s : State) (c : Char) : Option State := do
  let (mode, effect) ← scan s.mode c
  let due ← effect.apply s.due
  some ⟨mode, due⟩

def read (s : State) (text : List Char) : Option State := text.foldlM step s

/-- The brackets of a text are properly nested and balanced. -/
def Balanced (text : String) : Prop := read ⟨.code, []⟩ text.toList = some ⟨.code, []⟩

instance (text : String) : Decidable (Balanced text) := inferInstanceAs (Decidable (_ = _))

variable {s s' r r' : State} {m : Mode} {effect : Effect} {due due' below above : List Char}
  {c d : Char} {text : List Char}

@[simp] theorem read_nil (s : State) : read s [] = some s := rfl

@[simp] theorem read_cons (s : State) (c : Char) (text : List Char) :
    read s (c :: text) = (step s c).bind (read · text) := List.foldlM_cons

@[simp] theorem read_append (s : State) (a b : List Char) :
    read s (a ++ b) = (read s a).bind (read · b) := List.foldlM_append

theorem step_eq_some {m' : Mode} : step ⟨m, due⟩ c = some ⟨m', due'⟩ ↔
    ∃ effect, scan m c = some (m', effect) ∧ effect.apply due = some due' := by
  simp only [step, Option.bind_eq_bind, Option.bind_eq_some_iff, Option.some.injEq, State.mk.injEq,
    Prod.exists]
  constructor
  · rintro ⟨_, effect, hscan, _, happly, rfl, rfl⟩
    exact ⟨effect, hscan, happly⟩
  · rintro ⟨effect, hscan, happly⟩
    exact ⟨_, effect, hscan, _, happly, rfl, rfl⟩

/-! ## What lies below -/

/-- The same, with more brackets due at the end. -/
def State.under (s : State) (below : List Char) : State := ⟨s.mode, s.due ++ below⟩

theorem Effect.apply_append (h : effect.apply due = some due') (below : List Char) :
    effect.apply (due ++ below) = some (due' ++ below) := by
  cases effect with
  | keeps => simp_all [apply]
  | opens d => cases h; rfl
  | closes c =>
    cases due with
    | nil => cases h
    | cons d rest =>
      simp only [apply, Option.ite_none_right_eq_some, Option.some.injEq] at h
      obtain ⟨rfl, rfl⟩ := h
      simp [apply]

/-- What fails with the given brackets and not with one more needs just that one. -/
theorem Effect.eq_closes_of_apply (h : effect.apply due = none)
    (h' : effect.apply (due ++ d :: below) = some due') : effect = .closes d := by
  cases effect with
  | keeps => cases h
  | opens _ => cases h
  | closes c =>
    cases due with
    | nil =>
      simp only [List.nil_append, apply, Option.ite_none_right_eq_some] at h'
      rw [h'.1]
    | cons _ _ => simp_all [apply]

theorem Effect.apply_injective (h : effect.apply due = some above)
    (h' : effect.apply due' = some above) : due = due' := by
  cases effect with
  | keeps => exact (Option.some.inj h).trans (Option.some.inj h').symm
  | opens d => exact (List.cons.inj ((Option.some.inj h).trans (Option.some.inj h').symm)).2
  | closes c =>
    cases due with
    | nil => cases h
    | cons d rest =>
      cases due' with
      | nil => cases h'
      | cons d' rest' => simp_all [apply]

/-- What a text does not need may be anything. -/
theorem read_under (h : read s text = some r) (below : List Char) :
    read (s.under below) text = some (r.under below) := by
  induction text generalizing s with
  | nil =>
    cases h
    rfl
  | cons c text ih =>
    obtain ⟨mode, due⟩ := s
    rw [read_cons, Option.bind_eq_some_iff] at h ⊢
    obtain ⟨⟨mode', due'⟩, hstep, hread⟩ := h
    obtain ⟨effect, hscan, happly⟩ := step_eq_some.1 hstep
    have hunder := effect.apply_append happly below
    exact ⟨⟨mode', due' ++ below⟩, step_eq_some.2 ⟨effect, hscan, hunder⟩, ih hread⟩

/-- A text that can be read above two different brackets needs neither. -/
theorem exists_read_of_two {below' : List Char} (hne : c ≠ d)
    (h : read (s.under (c :: below)) text = some r)
    (h' : read (s.under (d :: below')) text = some r') : ∃ r₀, read s text = some r₀ := by
  induction text generalizing s with
  | nil => exact ⟨s, rfl⟩
  | cons x text ih =>
    obtain ⟨m, due⟩ := s
    rw [State.under, read_cons, Option.bind_eq_some_iff] at h h'
    obtain ⟨⟨mode, above⟩, hstep, hread⟩ := h
    obtain ⟨⟨mode', above'⟩, hstep', hread'⟩ := h'
    obtain ⟨effect, hscan, happly⟩ := step_eq_some.1 hstep
    obtain ⟨effect', hscan', happly'⟩ := step_eq_some.1 hstep'
    obtain ⟨rfl, rfl⟩ : mode = mode' ∧ effect = effect' := by
      rw [hscan] at hscan'
      simpa using hscan'
    cases hdue : effect.apply due with
    | none =>
      -- the character would have to close both brackets
      have hc := Effect.eq_closes_of_apply hdue happly
      have hd := Effect.eq_closes_of_apply hdue happly'
      rw [hc, Effect.closes.injEq] at hd
      exact absurd hd hne
    | some due' =>
      rw [effect.apply_append hdue, Option.some.injEq] at happly happly'
      rw [← happly] at hread
      rw [← happly'] at hread'
      obtain ⟨r₀, hr₀⟩ := ih (s := ⟨mode, due'⟩) hread hread'
      refine ⟨r₀, ?_⟩
      rw [read_cons, step_eq_some.2 ⟨effect, hscan, hdue⟩]
      exact hr₀

/-- From where a text ends and the mode in which it starts, the brackets at its start follow. -/
theorem read_injective (h : read ⟨m, due⟩ text = some r) (h' : read ⟨m, due'⟩ text = some r) :
    due = due' := by
  induction text generalizing m due due' with
  | nil =>
    cases h
    cases h'
    rfl
  | cons c text ih =>
    rw [read_cons, Option.bind_eq_some_iff] at h h'
    obtain ⟨⟨mode, above⟩, hstep, hread⟩ := h
    obtain ⟨⟨mode', above'⟩, hstep', hread'⟩ := h'
    obtain ⟨effect, hscan, happly⟩ := step_eq_some.1 hstep
    obtain ⟨effect', hscan', happly'⟩ := step_eq_some.1 hstep'
    obtain ⟨rfl, rfl⟩ : mode = mode' ∧ effect = effect' := by
      rw [hscan] at hscan'
      simpa using hscan'
    obtain rfl := ih hread hread'
    exact Effect.apply_injective happly happly'

/-! ## Characters that change nothing -/

/-- Whether a character is no bracket and has no part in strings and comments. -/
def isInert (c : Char) : Bool :=
  !(['(', ')', '[', ']', '\x7b', '\x7d', '"', '/', '\\'].contains c) && !isLineBreak c

/-- All characters of a text are inert. -/
def Inert (text : String) : Prop := ∀ c ∈ text.toList, isInert c = true

instance (text : String) : Decidable (Inert text) :=
  decidable_of_iff (text.toList.all isInert = true) List.all_eq_true

/-- Whether the next character means the same as after a space. -/
def Mode.isSettled : Mode → Bool
  | .slash => false
  | .escape => false
  | _ => true

theorem step_of_isInert (hs : s.mode.isSettled = true) (hc : isInert c = true) :
    step s c = some s := by
  obtain ⟨mode, due⟩ := s
  simp only [isInert, List.contains_cons, List.contains_nil, Bool.and_eq_true, Bool.not_eq_true',
    Bool.or_false, Bool.or_eq_false_iff, beq_eq_false_iff_ne] at hc
  refine step_eq_some.2 ⟨.keeps, ?_, rfl⟩
  have hbreak : c ≠ '\n' ∧ c ≠ '\r' := by
    constructor <;> rintro rfl <;> simp [isLineBreak] at hc
  cases mode with
  | code => simp [scan, inCode, bracket, hc]
  | comment => simp [scan, hc]
  | string => simp [scan, hc, hbreak]
  | slash => cases hs
  | escape => cases hs

theorem read_of_isInert (hs : s.mode.isSettled = true) (h : ∀ c ∈ text, isInert c = true) :
    read s text = some s := by
  induction text with
  | nil => rfl
  | cons c text ih =>
    obtain ⟨hc, htext⟩ := List.forall_mem_cons.1 h
    rw [read_cons, step_of_isInert hs hc]
    exact ih htext

theorem isInert_of_isDigit (h : c.isDigit = true) : isInert c = true := by
  have hle : c.toNat ≤ 57 := by
    simp only [Char.isDigit, Bool.and_eq_true, decide_eq_true_eq] at h
    exact h.2
  have hne : ∀ d : Char, d.isDigit = false → c ≠ d := by
    rintro d hd rfl
    rw [hd] at h
    cases h
  simp only [isInert, isLineBreak, List.contains_cons, List.contains_nil, Bool.or_false,
    Bool.and_eq_true, Bool.not_eq_true', Bool.or_eq_false_iff, beq_eq_false_iff_ne]
  refine ⟨⟨?_, ?_, ?_, ?_, ?_, ?_, ?_, ?_, ?_⟩, ⟨⟨?_, ?_⟩, by omega⟩, by omega⟩ <;>
    exact hne _ (by decide)

/-! ## Indentation -/

/-- After a line break, spaces mean nothing. -/
theorem isSettled_of_step_newline (h : step s '\n' = some s') : s'.mode.isSettled = true := by
  obtain ⟨mode, due⟩ := s
  obtain ⟨mode', due'⟩ := s'
  obtain ⟨effect, hscan, -⟩ := step_eq_some.1 h
  cases mode <;> simp [scan, inCode, isLineBreak] at hscan <;> simp [← hscan.1, Mode.isSettled]

theorem read_indentLine (hs : s.mode.isSettled = true) (width : Nat) (line : List Char) :
    read s (indentLine width line) = read s line := by
  unfold indentLine
  split
  · rfl
  · have hspaces : read s (List.replicate width ' ') = some s :=
      read_of_isInert hs fun c hc => by rw [(List.mem_replicate.1 hc).2]; decide
    rw [read_append, hspaces]
    rfl

theorem read_unlines_indentLine (hs : s.mode.isSettled = true) (width : Nat)
    (ls : List (List Char)) :
    read s (unlines (ls.map (indentLine width))) = read s (unlines ls) := by
  induction ls generalizing s with
  | nil => rfl
  | cons line ls ih =>
    cases ls with
    | nil =>
      simp only [unlines, List.map_cons, List.map_nil, List.intercalate_singleton]
      exact read_indentLine hs width line
    | cons next rest =>
      rw [List.map_cons, unlines_cons (by simp), unlines_cons (by simp), read_append, read_append,
        read_indentLine hs]
      congr 1
      funext r
      rw [read_cons, read_cons]
      -- both go on after the line break, where the rest is read in a settled mode
      cases hstep : step r '\n' with
      | none => rfl
      | some r' => exact ih (isSettled_of_step_newline hstep)

/-- Indentation changes nothing. -/
theorem read_indentChars (hs : s.mode.isSettled = true) (width : Nat) (text : List Char) :
    read s (indentChars width text) = read s text := by
  rw [indentChars, read_unlines_indentLine hs, unlines_lines]

/-! ## Pieces of code -/

/-- Reading a text as code turns the closing brackets that are due into others. -/
def Moves (text : String) (due due' : List Char) : Prop :=
  read ⟨.code, due⟩ text.toList = some ⟨.code, due'⟩

instance (text : String) (due due' : List Char) : Decidable (Moves text due due') :=
  inferInstanceAs (Decidable (_ = _))

/-- A text leaves all brackets alone. -/
def Neutral (text : String) : Prop := Moves text [] []

instance (text : String) : Decidable (Neutral text) := inferInstanceAs (Decidable (Moves _ _ _))

theorem Moves.append {a b : String} (ha : Moves a due above) (hb : Moves b above due') :
    Moves (a ++ b) due due' := by
  rw [Moves, String.toList_append, read_append, ha]
  exact hb

theorem Moves.under {text : String} (h : Moves text due due') (below : List Char) :
    Moves text (due ++ below) (due' ++ below) :=
  read_under h below

theorem Neutral.moves {text : String} (h : Neutral text) (due : List Char) : Moves text due due :=
  h.under due

theorem Neutral.append {a b : String} (ha : Neutral a) (hb : Neutral b) : Neutral (a ++ b) :=
  Moves.append ha hb

theorem Moves.indent {text : String} (h : Moves text due due') (width : Nat) :
    Moves (indent width text) due due' := by
  rw [Moves, TradeFlow.indent, String.toList_ofList, read_indentChars rfl]
  exact h

theorem Inert.neutral {text : String} (h : Inert text) : Neutral text :=
  read_of_isInert rfl h

theorem Inert.append {a b : String} (ha : Inert a) (hb : Inert b) : Inert (a ++ b) := by
  intro c hc
  rw [String.toList_append, List.mem_append] at hc
  exact hc.elim (ha c) (hb c)

theorem read_hexDigits {n : Nat} (h : n < 0x20 ∨ n = 0x2028 ∨ n = 0x2029) :
    read ⟨.string, []⟩ ('\\' :: 'u' :: hexDigits 4 n) = some ⟨.string, []⟩ := by
  have hsmall : ∀ k < 0x20,
      read ⟨.string, []⟩ ('\\' :: 'u' :: hexDigits 4 k) = some ⟨.string, []⟩ := by decide
  rcases h with h | rfl | rfl
  · exact hsmall n h
  · decide
  · decide

/-- An escaped character stays inside its literal. -/
theorem read_escape (c : Char) : read ⟨.string, []⟩ (Literal.escape c) = some ⟨.string, []⟩ := by
  unfold Literal.escape
  repeat (split; · rfl)
  split
  · next h => exact read_hexDigits (by simpa [or_assoc] using h)
  · next hquote hslash _ _ hnewline hreturn _ _ =>
    -- the character stands for itself
    have hscan : scan .string c = some (.string, .keeps) := by
      simp [scan, hquote, hslash, hnewline, hreturn]
    rw [read_cons, step_eq_some.2 ⟨_, hscan, rfl⟩]
    rfl

/-- A string literal leaves the brackets alone, whatever it says. -/
theorem neutral_literal (text : String) : Neutral (Literal.ofString text) := by
  have hinside : ∀ chars : List Char,
      read ⟨.string, []⟩ (chars.flatMap Literal.escape) = some ⟨.string, []⟩ := by
    intro chars
    induction chars with
    | nil => rfl
    | cons c chars ih =>
      rw [List.flatMap_cons, read_append, read_escape]
      exact ih
  rw [Neutral, Moves, Literal.ofString, String.toList_ofList, Literal.write, Literal.writeWith,
    List.cons_append, read_cons]
  show read ⟨.string, []⟩ _ = _
  rw [read_append, hinside]
  rfl

/-! ## Texts that are joined -/

theorem read_intercalate {sep : List Char} (hsep : read s sep = some s) {ls : List (List Char)}
    (h : ∀ text ∈ ls, read s text = some s) : read s (List.intercalate sep ls) = some s := by
  induction ls with
  | nil => rfl
  | cons text ls ih =>
    obtain ⟨htext, hrest⟩ := List.forall_mem_cons.1 h
    cases ls with
    | nil => rwa [List.intercalate_singleton]
    | cons next rest =>
      rw [List.intercalate_cons_cons, read_append, read_append, htext, Option.bind_some, hsep]
      exact ih hrest

theorem Moves.intercalate {sep : String} (hsep : Moves sep due due) {texts : List String}
    (h : ∀ text ∈ texts, Moves text due due) : Moves (sep.intercalate texts) due due := by
  rw [Moves, String.toList_intercalate]
  refine read_intercalate hsep fun text htext => ?_
  obtain ⟨t, ht, rfl⟩ := List.mem_map.1 htext
  exact h t ht

theorem Neutral.join {texts : List String} (h : ∀ text ∈ texts, Neutral text) :
    Neutral (String.join texts) := by
  rw [Neutral, Moves, String.toList_join]
  induction texts with
  | nil => rfl
  | cons text texts ih =>
    obtain ⟨htext, hrest⟩ := List.forall_mem_cons.1 h
    rw [List.flatMap_cons, read_append, htext]
    exact ih hrest

/-- A comment up to the end of its line. -/
theorem neutral_comment {comment : String} (h : Inert comment) : Neutral ("// " ++ comment ++ "\n") := by
  have hopen : read ⟨.code, []⟩ "// ".toList = some ⟨.comment, []⟩ := by decide
  rw [Neutral, Moves, String.toList_append, String.toList_append, read_append, read_append, hopen,
    Option.bind_some, read_of_isInert rfl h]
  rfl

end Brackets

open Brackets

/-! ## Numbers and names -/

theorem isInert_of_mem_natText {n : Nat} {c : Char} (h : c ∈ natText n) : isInert c = true :=
  isInert_of_isDigit (Nat.isDigit_of_mem_toDigits (by decide) (by decide) h)

theorem inert_intText (i : Int) : Inert (intText i) := by
  intro c hc
  rw [intText, String.toList_ofList] at hc
  split at hc
  · rcases List.mem_cons.1 hc with rfl | hc
    · decide
    · exact isInert_of_mem_natText hc
  · exact isInert_of_mem_natText hc

theorem isInert_of_mem_positional {digits : List Char} (h : ∀ c ∈ digits, isInert c = true)
    {whole : Int} {c : Char} (hc : c ∈ NumberFormat.positional digits whole) : isInert c = true := by
  have hzero : ∀ k : Nat, c ∈ List.replicate k '0' → isInert c = true := by
    intro k hk
    rw [(List.mem_replicate.1 hk).2]
    decide
  have hpoint : c = '.' → isInert c = true := by
    rintro rfl
    decide
  simp only [NumberFormat.positional] at hc
  split at hc
  · simp only [List.mem_cons, List.mem_append] at hc
    rcases hc with rfl | hc | hc | hc
    · decide
    · exact hpoint hc
    · exact hzero _ hc
    · exact h c hc
  · split at hc
    · exact (List.mem_append.1 hc).elim (h c) (hzero _)
    · simp only [List.mem_append, List.mem_cons] at hc
      rcases hc with hc | hc | hc
      · exact h c (List.mem_of_mem_take hc)
      · exact hpoint hc
      · exact h c (List.mem_of_mem_drop hc)

theorem Binary64.inert_literal (x : Binary64) : Inert x.literal := by
  cases x with
  | nan => decide
  | infinity negative => cases negative <;> decide
  | finite negative code =>
    intro c hc
    simp only [literal, NumberFormat.text, String.toList_ofList, List.mem_append] at hc
    rcases hc with hc | hc
    · split at hc
      · rw [List.mem_singleton.1 hc]
        decide
      · cases hc
    · simp only [NumberFormat.magnitude, NumberFormat.program, Option.any_none, Bool.false_eq_true,
        and_false, or_self, if_false] at hc
      exact isInert_of_mem_positional (fun _ => isInert_of_mem_natText) hc

theorem Decimal.isInert_of_mem_digits {d : Decimal} {c : Char}
    (h : c ∈ d.digits.1 ∨ c ∈ d.digits.2) : isInert c = true := by
  have hpadded : c ∈ List.replicate (d.places + 1 - (natText d.coefficient.natAbs).length) '0' ++
      natText d.coefficient.natAbs :=
    h.elim List.mem_of_mem_take List.mem_of_mem_drop
  rcases List.mem_append.1 hpadded with hc | hc
  · rw [(List.mem_replicate.1 hc).2]
    decide
  · exact isInert_of_mem_natText hc

theorem Decimal.inert_fixed (d : Decimal) (places : Nat) : Inert (d.fixed places) := by
  intro c hc
  simp only [fixed, render, String.toList_ofList, List.mem_append, or_assoc] at hc
  rcases hc with hc | hc | hc
  · split at hc
    · rw [List.mem_singleton.1 hc]
      decide
    · cases hc
  · exact isInert_of_mem_digits (.inl hc)
  · split at hc
    · cases hc
    · rcases List.mem_cons.1 hc with rfl | hc
      · decide
      · exact isInert_of_mem_digits (.inr hc)

theorem Capability.inert_name (c : Capability) : Inert c.name := by
  cases c <;> decide

theorem Operator.inert_symbol (o : Operator) : Inert o.symbol := by
  cases o <;> decide

theorem Variable.inert_name {v : Variable} (h : Inert v.stem) : Inert v.name := by
  unfold name
  split
  · exact h
  · refine h.append fun c hc => ?_
    rw [String.toList_ofList] at hc
    exact isInert_of_mem_natText hc

/-! ## Expressions and calls -/

/-- The variable of an expression has an inert name. -/
def Source.Plain (s : Source) : Prop := ∀ v, s.reads? = some v → Inert v.stem

theorem Source.Plain.neutral {s : Source} (h : s.Plain) : Neutral s.text := by
  cases s with
  | timestamp => exact (Capability.inert_name .currentTimestamp).neutral
  | result v => exact (v.inert_name (h v rfl)).neutral
  | instruments v => exact (v.inert_name (h v rfl)).neutral.append (by decide)
  | symbol v => exact (v.inert_name (h v rfl)).neutral.append (by decide)

/-- The variable of an argument has an inert name. -/
def Argument.Plain (a : Argument) : Prop := ∀ s, a.source? = some s → s.Plain

theorem Argument.Plain.neutral {a : Argument} (h : a.Plain) : Neutral a.text := by
  cases a with
  | bound s => exact (h s rfl).neutral
  | now => exact (Capability.inert_name .currentTimestamp).neutral
  | literal l => exact neutral_literal _
  | placeholder => exact neutral_literal _
  | number x => exact x.inert_literal.neutral
  | scaled s factor =>
    exact ((h s rfl).neutral.append (by decide)).append (factor.inert_fixed 4).neutral

/-- A field of a call with an inert name, a plain value and an inert comment. -/
structure Field.Plain (f : Field) : Prop where
  name : Inert f.name
  value : f.value.Plain
  comment : ∀ comment, f.comment = some comment → Inert comment

theorem Field.Plain.neutral {f : Field} (h : f.Plain) : Neutral f.text := by
  have hfront : Neutral ("  " ++ f.name ++ ": " ++ f.value.text ++ ",") :=
    ((((show Neutral "  " by decide).append h.name.neutral).append (by decide)).append
      h.value.neutral).append (by decide)
  cases hc : f.comment with
  | none =>
    have htext : f.text = "  " ++ f.name ++ ": " ++ f.value.text ++ "," ++ "\n" := by
      simp [text, hc]
    rw [htext]
    exact hfront.append (by decide)
  | some comment =>
    have htext : f.text = "  " ++ f.name ++ ": " ++ f.value.text ++ "," ++ " " ++
        ("// " ++ comment ++ "\n") := by
      simp only [text, hc]
      exact String.toList_inj.1 (by simp)
    rw [htext]
    exact (hfront.append (by decide)).append (neutral_comment (h.comment comment hc))

/-- A call with an inert note, a result with an inert name and plain fields. -/
structure Call.Plain (c : Call) : Prop where
  note : ∀ note, c.note = some note → Inert note
  result : ∀ v, c.result = some v → Inert v.stem
  fields : ∀ f ∈ c.fields, f.Plain

theorem Call.Plain.neutral_arguments {c : Call} (h : c.Plain) : Neutral (arguments c.fields) := by
  unfold arguments
  split
  · decide
  · have hopen : Moves "(\x7b\n" [] ['\x7d', ')'] := by decide
    have hclose : Moves "\x7d)" ['\x7d', ')'] [] := by decide
    have hfields : Neutral (String.join (c.fields.map Field.text)) := by
      refine .join fun text htext => ?_
      obtain ⟨f, hf, rfl⟩ := List.mem_map.1 htext
      exact (h.fields f hf).neutral
    exact (hopen.append (hfields.moves _)).append hclose

theorem Call.Plain.neutral {c : Call} (h : c.Plain) : Neutral c.text := by
  unfold text
  refine ((((Neutral.append ?_ ?_).append (by decide)).append
    c.function.inert_name.neutral).append h.neutral_arguments).append (by decide)
  · cases hn : c.note with
    | none => decide
    | some note => exact neutral_comment (h.note note hn)
  · cases hr : c.result with
    | none => decide
    | some v =>
      exact ((show Neutral "const " by decide).append
        (v.inert_name (h.result v hr)).neutral).append (by decide)

/-! ## Conditions -/

/-- The closing brackets that are due around every statement of a program: those of a block and of
what holds the block. -/
def frame : List Char := ['\x7d', '\x7d']

/-- The line that opens the block of a condition on a field of nothing. -/
def fieldLine (field : String) : String := "if (null?." ++ field ++ " > 0) \x7b\n"

/-- A field with which the line of a condition opens one block and does nothing else to the
brackets. -/
def Harmless (field : String) : Prop := Moves (fieldLine field) frame ('\x7d' :: frame)

instance (field : String) : Decidable (Harmless field) := inferInstanceAs (Decidable (Moves _ _ _))

/-- The line that opens the block of a condition. -/
def conditionLine (c : Condition) : String := "if (" ++ c.text ++ ") \x7b\n"

/-- A space settles the mode and does nothing else. -/
theorem exists_step_space (r : State) : ∃ r', step r ' ' = some r' ∧ r'.mode.isSettled = true := by
  obtain ⟨mode, due⟩ := r
  cases mode <;> exact ⟨_, rfl, rfl⟩

/-- After a space, the rest of the line of a condition does not depend on what is compared. -/
theorem read_comparison {w : String} (hw : Inert w) (r : State) :
    read r (" " ++ w ++ ") \x7b\n").toList = (step r ' ').bind (read · ") \x7b\n".toList) := by
  obtain ⟨r', hstep, hsettled⟩ := exists_step_space r
  have hspace : read r " ".toList = some r' := by
    show (step r ' ').bind some = _
    rw [hstep]
    rfl
  rw [String.toList_append, String.toList_append, read_append, read_append, hspace, hstep,
    Option.bind_some, Option.bind_some, read_of_isInert hsettled hw]
  rfl

/-- How the line of a condition is read when the field stands at the end of what is compared. -/
theorem read_fieldAccess {base w : String} (hbase : Neutral base) (hw : Inert w) (field : String)
    (due : List Char) :
    read ⟨.code, due⟩ ("if (" ++ (base ++ field ++ " " ++ w) ++ ") \x7b\n").toList =
      (read ⟨.code, ')' :: due⟩ field.toList).bind fun r =>
        (step r ' ').bind (read · ") \x7b\n".toList) := by
  have hopen : Moves ("if (" ++ base) due (')' :: due) :=
    ((show Moves "if (" [] [')'] by decide).under due).append (hbase.moves _)
  have htext : "if (" ++ (base ++ field ++ " " ++ w) ++ ") \x7b\n" =
      ("if (" ++ base) ++ field ++ (" " ++ w ++ ") \x7b\n") := by
    simp only [String.append_assoc]
  rw [htext, String.toList_append, String.toList_append, read_append, read_append, hopen,
    Option.bind_some]
  congr 1
  funext r
  exact read_comparison hw r

theorem Condition.inert_comparison (c : Condition) :
    Inert (c.operator.symbol ++ " " ++ c.compareValue.literal) :=
  (c.operator.inert_symbol.append (by decide)).append c.compareValue.inert_literal

theorem conditionLine_eq (c : Condition) :
    conditionLine c =
      "if (" ++ (c.access ++ " " ++ (c.operator.symbol ++ " " ++ c.compareValue.literal)) ++
        ") \x7b\n" := by
  simp only [conditionLine, Condition.text, comparison, String.append_assoc]

/-- What else stands in the line of a condition on a field does not matter. -/
theorem read_conditionLine {c : Condition} (base : String) (hbase : Neutral base)
    (haccess : c.access = base ++ c.field) (due : List Char) :
    read ⟨.code, due⟩ (conditionLine c).toList = read ⟨.code, due⟩ (fieldLine c.field).toList := by
  have hline : fieldLine c.field = "if (" ++ ("null?." ++ c.field ++ " " ++ "> 0") ++ ") \x7b\n" :=
    String.toList_inj.1 (by simp [fieldLine])
  rw [hline, read_fieldAccess (by decide) (by decide), conditionLine_eq, haccess,
    read_fieldAccess hbase c.inert_comparison]

theorem moves_conditionLine_of_neutral {c : Condition} (haccess : Neutral c.access) :
    Moves (conditionLine c) frame ('\x7d' :: frame) := by
  have hopen : Moves "if (" frame (')' :: frame) := by decide
  have hclose : Moves ") \x7b\n" (')' :: frame) ('\x7d' :: frame) := by decide
  have hmiddle : Neutral (c.access ++ " " ++ (c.operator.symbol ++ " " ++ c.compareValue.literal)) :=
    (haccess.append (by decide)).append c.inert_comparison.neutral
  rw [conditionLine_eq]
  exact (hopen.append (hmiddle.moves _)).append hclose

theorem neutral_optionalField {base : String} (hbase : Neutral base) {path : List String}
    (h : ∀ field ∈ path, Neutral field) : Neutral (optionalField base path) := by
  induction path generalizing base with
  | nil => exact hbase
  | cons field path ih =>
    obtain ⟨hfield, hpath⟩ := List.forall_mem_cons.1 h
    exact ih ((hbase.append (by decide)).append hfield) hpath

theorem neutral_lastCandleField {base : String} (h : Neutral base) (field : String) :
    Neutral (lastCandleField base field) := by
  have hcolumn : Neutral ("[" ++ String.ofList (natText (candleColumn field)) ++ "]") := by
    have hdigits : Inert (String.ofList (natText (candleColumn field))) := by
      intro c hc
      rw [String.toList_ofList] at hc
      exact isInert_of_mem_natText hc
    have hopen : Moves "[" [] [']'] := by decide
    exact (hopen.append (hdigits.neutral.moves _)).append (by decide)
  refine neutral_optionalField h ?_
  simp only [List.forall_mem_cons]
  exact ⟨by decide, by decide, by decide, by decide, hcolumn, nofun⟩

/-- With a harmless field, the line of a condition opens one block. -/
theorem moves_conditionLine {c : Condition} (hvalue : ∀ b, c.value = some b → b.expr.Plain)
    (hfield : Harmless c.field) : Moves (conditionLine c) frame ('\x7d' :: frame) := by
  have hread : ∀ base, Neutral base → c.access = base ++ c.field →
      Moves (conditionLine c) frame ('\x7d' :: frame) := fun base hbase haccess =>
    (read_conditionLine base hbase haccess frame).trans hfield
  cases hv : c.value with
  | none =>
    refine hread ("null" ++ "?.") (by decide) ?_
    simp only [Condition.access, hv, optionalField, List.foldl_cons, List.foldl_nil]
  | some b =>
    obtain ⟨source, shape⟩ := b
    have hsource := (hvalue _ hv).neutral
    cases shape with
    | generic =>
      refine hread (source.text ++ "?.") (hsource.append (by decide)) ?_
      simp only [Condition.access, hv, optionalField, List.foldl_cons, List.foldl_nil]
    | quote =>
      refine hread (source.text ++ "?." ++ "payload" ++ "?.")
        (((hsource.append (by decide)).append (by decide)).append (by decide)) ?_
      simp only [Condition.access, hv, optionalField, List.foldl_cons, List.foldl_nil]
    | candle =>
      -- the field only chooses a column
      refine moves_conditionLine_of_neutral ?_
      simp only [Condition.access, hv]
      exact neutral_lastCandleField hsource c.field

/-! ## Blocks -/

theorem append_braced (head body : String) :
    head ++ braced body = head ++ "\x7b\n" ++ indent 2 body ++ "\n\x7d" := by
  rw [braced, ← String.append_assoc, ← String.append_assoc]

/-- A block between braces leaves the brackets alone if the statements in it do. -/
theorem moves_block {text : String} (h : Moves text frame frame) :
    Moves (indent 2 text ++ "\n\x7d") ('\x7d' :: frame) frame := by
  have hbody : Moves (indent 2 text) ('\x7d' :: frame) ('\x7d' :: frame) :=
    (h.indent 2).under ['\x7d']
  exact hbody.append (by decide)

theorem moves_braced {text : String} (h : Moves text frame frame) :
    Moves (braced text) frame frame := by
  have hopen : Moves "\x7b\n" frame ('\x7d' :: frame) := by decide
  rw [braced, String.append_assoc]
  exact hopen.append (moves_block h)

theorem moves_joinStatements {statements : List String}
    (h : ∀ text ∈ statements, Moves text frame frame) :
    Moves (joinStatements statements) frame frame :=
  Moves.intercalate (by decide) h

theorem moves_loopText {item : Variable} {array : Option Source} {body : String}
    (hitem : Inert item.stem) (harray : ∀ s, array = some s → s.Plain)
    (hbody : Moves body frame frame) : Moves (loopText item array body) frame frame := by
  have hopen : Moves "for (const " frame (')' :: frame) := by decide
  have hclose : Moves " ?? []) " (')' :: frame) frame := by decide
  have hname := (item.inert_name hitem).neutral
  unfold loopText
  refine ((((hopen.append (hname.moves _)).append (by decide)).append (Neutral.moves ?_ _)).append
    hclose).append (moves_braced hbody)
  cases array with
  | none => decide
  | some source => exact (harray source rfl).neutral

theorem branchText_eq (c : Condition) (yes no : List String) :
    branchText c yes no = conditionLine c ++ (indent 2 (joinStatements yes) ++ "\n\x7d") ++
      (if no.isEmpty then "" else " else " ++ braced (joinStatements no)) := by
  unfold branchText conditionLine braced
  exact String.toList_inj.1 (by simp)

theorem moves_branchText {c : Condition} {yes no : List String}
    (hline : Moves (conditionLine c) frame ('\x7d' :: frame))
    (hyes : ∀ text ∈ yes, Moves text frame frame) (hno : ∀ text ∈ no, Moves text frame frame) :
    Moves (branchText c yes no) frame frame := by
  rw [branchText_eq]
  refine (hline.append (moves_block (moves_joinStatements hyes))).append ?_
  split
  · rfl
  · have helse : Moves " else " frame frame := by decide
    exact helse.append (moves_braced (moves_joinStatements hno))

/-! ## Reading around a condition -/

section Reading

variable {due rest : List Char} {field : String} {c : Condition}

/-- A condition without statements is its line and a closing brace. -/
theorem toList_branchText_nil (c : Condition) :
    (branchText c [] []).toList = (conditionLine c).toList ++ "\n\x7d".toList := by
  have hempty : indent 2 (joinStatements []) = "" := by decide
  rw [branchText_eq, hempty]
  simp

/-- After the line of a condition, code goes on. -/
theorem mode_of_read_fieldLine {s r : State} (h : read s (fieldLine field).toList = some r) :
    r.mode = .code := by
  have htext : (fieldLine field).toList = ("if (null?." ++ field ++ " > 0) ").toList ++ ['\x7b', '\n'] := by
    simp [fieldLine]
  rw [htext, read_append, Option.bind_eq_some_iff] at h
  obtain ⟨⟨mode, due⟩, -, h⟩ := h
  -- a string would run over the end of the line
  cases mode with
  | code | slash | comment =>
    cases h
    rfl
  | string | escape => cases h

/-- If what follows a condition needs the brackets that are due before it, the line of the condition
opens one block. -/
theorem moves_fieldLine (hvalue : c.value = none) (hrest : read ⟨.code, due⟩ rest = some ⟨.code, []⟩)
    (h : read ⟨.code, due⟩ ((branchText c [] []).toList ++ rest) = some ⟨.code, []⟩) :
    Moves (fieldLine c.field) due ('\x7d' :: due) := by
  have haccess : c.access = "null" ++ "?." ++ c.field := by
    simp only [Condition.access, hvalue, optionalField, List.foldl_cons, List.foldl_nil]
  rw [toList_branchText_nil, List.append_assoc, read_append,
    read_conditionLine ("null" ++ "?.") (by decide) haccess, Option.bind_eq_some_iff] at h
  obtain ⟨⟨mode, above⟩, hline, h⟩ := h
  obtain rfl : mode = .code := mode_of_read_fieldLine hline
  have hexpected : read ⟨.code, '\x7d' :: due⟩ ("\n\x7d".toList ++ rest) = some ⟨.code, []⟩ := hrest
  rw [Moves, hline, read_injective h hexpected]

/-- A field is harmless if its line opens one block both around a program and around a block. -/
theorem harmless_of_moves (h : Moves (fieldLine field) (frame ++ [')']) ('\x7d' :: (frame ++ [')'])))
    (h' : Moves (fieldLine field) ('\x7d' :: (frame ++ [')']))
      ('\x7d' :: '\x7d' :: (frame ++ [')']))) : Harmless field := by
  obtain ⟨⟨mode, due⟩, hread⟩ := exists_read_of_two (s := ⟨.code, frame⟩) (c := ')') (d := '\x7d')
    (by decide) h h'
  -- the first bracket that is not needed closes a call in one place and a block in the other
  have heq := Option.some.inj ((read_under hread [')']).symm.trans h)
  obtain ⟨rfl, hdue⟩ : mode = .code ∧ due ++ [')'] = ('\x7d' :: frame) ++ [')'] := State.mk.inj heq
  obtain rfl := List.append_cancel_right hdue
  exact hread

/-- How the text in a loop over nothing is read. -/
theorem read_loopText (body : String) (due rest : List Char) :
    read ⟨.code, due⟩ ((loopText ⟨"item", 1⟩ none body).toList ++ rest) =
      read ⟨.code, '\x7d' :: due⟩ (body.toList ++ ("\n\x7d".toList ++ rest)) := by
  have htext : loopText ⟨"item", 1⟩ none body =
      "for (const " ++ "item" ++ " of " ++ "[]" ++ " ?? []) " ++ "\x7b\n" ++ indent 2 body ++
        "\n\x7d" := append_braced _ body
  have hopen : Moves ("for (const " ++ "item" ++ " of " ++ "[]" ++ " ?? []) " ++ "\x7b\n") due
      ('\x7d' :: due) :=
    Moves.under (show Moves _ [] ['\x7d'] by decide) due
  rw [Moves] at hopen
  rw [htext, String.toList_append, String.toList_append, List.append_assoc, List.append_assoc,
    read_append, hopen, Option.bind_some, read_append, indent, String.toList_ofList,
    read_indentChars rfl, ← read_append]

end Reading

namespace Block

/-- A block of plain calls, loops over plain arrays, and conditions on allowed fields of plain
values. -/
def Plain (allowed : String → Prop) : Block → Prop
  | .nil => True
  | .call c rest => c.Plain ∧ rest.Plain allowed
  | .loop item array body rest =>
    Inert item.stem ∧ (∀ s, array = some s → s.Plain) ∧ body.Plain allowed ∧ rest.Plain allowed
  | .branch condition yes no =>
    (∀ b, condition.value = some b → b.expr.Plain) ∧ allowed condition.field ∧ yes.Plain allowed ∧
      no.Plain allowed

theorem Plain.moves_statements {b : Block} (h : b.Plain Harmless) :
    ∀ text ∈ b.statements, Moves text frame frame := by
  induction b with
  | nil => exact nofun
  | call c rest ih =>
    obtain ⟨hc, hrest⟩ := h
    exact List.forall_mem_cons.2 ⟨hc.neutral.moves frame, ih hrest⟩
  | loop item array body rest ihbody ihrest =>
    obtain ⟨hitem, harray, hbody, hrest⟩ := h
    exact List.forall_mem_cons.2
      ⟨moves_loopText hitem harray (moves_joinStatements (ihbody hbody)), ihrest hrest⟩
  | branch condition yes no ihyes ihno =>
    obtain ⟨hvalue, hfield, hyes, hno⟩ := h
    have hline := moves_conditionLine hvalue hfield
    exact List.forall_mem_cons.2 ⟨moves_branchText hline (ihyes hyes) (ihno hno), nofun⟩

/-- A plain block leaves the brackets alone if its fields are harmless. -/
theorem Plain.moves {b : Block} (h : b.Plain Harmless) : Moves b.text frame frame :=
  moves_joinStatements h.moves_statements

end Block

/-! ## Programs -/

namespace Program

/-- What stands before the body of a program. -/
def beginning (capabilities : List Capability) : String :=
  "import \x7b ganaka \x7d from \"@ganaka/sdk\";\n\nawait ganaka(\x7b\n  fn: async (\x7b "
    ++ ", ".intercalate (capabilities.map Capability.name) ++ " \x7d) => \x7b\n"

/-- What follows the body of a program. -/
def ending (settings : StrategyConfig) : String := "\n  \x7d,\n" ++ closing settings

theorem source_eq (p : Program) :
    p.source = beginning p.capabilities ++ indent 4 p.body.text ++ ending p.settings := by
  rw [ending, ← String.append_assoc]
  rfl

/-- A setting of the strategy on a line of its own. -/
theorem neutral_nameLine (settings : StrategyConfig) : Neutral (nameLine settings) := by
  unfold nameLine
  split
  · decide
  · exact ((show Neutral "\n  name: " by decide).append (neutral_literal _)).append (by decide)

theorem neutral_tagsLine (settings : StrategyConfig) : Neutral (tagsLine settings) := by
  have hopen : Moves "\n  tags: [" [] [']'] := by decide
  have htags : Neutral (",".intercalate ((tagLiterals settings.tags).map TextLiteral.text)) := by
    refine Moves.intercalate (by decide) fun text htext => ?_
    obtain ⟨l, -, rfl⟩ := List.mem_map.1 htext
    exact neutral_literal _
  unfold tagsLine
  split
  · decide
  · exact (hopen.append (htags.moves _)).append (by decide)

/-- The beginning of a program opens three brackets around its body. -/
theorem moves_beginning (capabilities : List Capability) :
    Moves (beginning capabilities) [] (frame ++ [')']) := by
  have hopen : Moves
      "import \x7b ganaka \x7d from \"@ganaka/sdk\";\n\nawait ganaka(\x7b\n  fn: async (\x7b " []
      ['\x7d', ')', '\x7d', ')'] := by decide
  have hnames : Neutral (", ".intercalate (capabilities.map Capability.name)) := by
    refine Moves.intercalate (by decide) fun text htext => ?_
    obtain ⟨c, -, rfl⟩ := List.mem_map.1 htext
    exact c.inert_name.neutral
  exact (hopen.append (hnames.moves _)).append (by decide)

/-- The end of a program closes them. -/
theorem moves_ending (settings : StrategyConfig) : Moves (ending settings) (frame ++ [')']) [] := by
  have hbody : Moves "\n  \x7d,\n" (frame ++ [')']) ['\x7d', ')'] := by decide
  have hclose : Moves "\n\x7d);\n" ['\x7d', ')'] [] := by decide
  have htimes : Neutral ("  startTime: " ++ (strategyLiteral "startTime" settings.startTime).text ++
      ",\n" ++ "  endTime: " ++ (strategyLiteral "endTime" settings.endTime).text ++ ",\n") :=
    (((((show Neutral "  startTime: " by decide).append (neutral_literal _)).append
      (by decide)).append (by decide)).append (neutral_literal _)).append (by decide)
  refine hbody.append (Moves.append (Neutral.moves ?_ _) hclose)
  exact ((((htimes.append (by decide)).append (inert_intText _).neutral).append (by decide)).append
    (neutral_nameLine settings)).append (neutral_tagsLine settings)

/-- The body of a program stands inside of three brackets. -/
theorem read_source (p : Program) :
    read ⟨.code, []⟩ p.source.toList =
      (read ⟨.code, frame ++ [')']⟩ p.body.text.toList).bind (read · (ending p.settings).toList) := by
  have hbegin := moves_beginning p.capabilities
  rw [Moves] at hbegin
  rw [source_eq, String.toList_append, String.toList_append, read_append, read_append, hbegin,
    Option.bind_some, indent, String.toList_ofList, read_indentChars rfl]

/-- What it takes that a program is balanced. -/
theorem balanced_source_iff (p : Program) : Balanced p.source ↔
    read ⟨.code, frame ++ [')']⟩ (p.body.text.toList ++ (ending p.settings).toList) =
      some ⟨.code, []⟩ := by
  rw [Brackets.Balanced, read_source, read_append]

/-- The brackets of a program with a plain body and harmless fields are balanced. -/
theorem balanced_of_plain {p : Program} (h : p.body.Plain Harmless) : Balanced p.source := by
  have hbody : read ⟨.code, frame ++ [')']⟩ p.body.text.toList = some ⟨.code, frame ++ [')']⟩ :=
    h.moves.under [')']
  rw [balanced_source_iff, read_append, hbody, Option.bind_some]
  exact moves_ending p.settings

end Program

end TradeFlow
