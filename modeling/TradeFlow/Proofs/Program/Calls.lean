import TradeFlow.Proofs.Program.Brackets

/-!
The functions that a text calls.

A text is read from left to right, as for its brackets. It calls a function where the name of the
function stands in front of an opening parenthesis, with nothing but white space and comments in
between, outside of string literals and comments. What is proved:

1. `Calls.run_indentChars`: indentation does not matter.
2. `Calls.reads_literal`: a string literal calls nothing, whatever it says.
3. `Calls.reads_conditionLine`: the line of a condition calls the same wherever it stands, and code
   goes on after it, whatever its field is.
4. `Block.Plain.reads`: a block calls the functions of its calls and what stands in the lines of its
   conditions.
5. `Program.called_source`: a program calls what its body calls.
-/

namespace TradeFlow

open Brackets

namespace Calls

/-! ## Reading -/

/-- Where a reader stands, and what it has found. -/
structure State where
  mode : Mode
  /-- The last word, unless more than white space and comments stands behind it. -/
  word : List Char
  /-- Whether something stands behind the word. -/
  ended : Bool
  /-- The functions that are called. -/
  found : List Capability

/-- Whether a character is part of a word. So is a point: what follows it belongs to what stands before
it. -/
def isWordChar (c : Char) : Bool :=
  c.isAlphanum || c == '_' || c == '$' || c == '.' || 0x80 ≤ c.toNat

/-- The mode after a character. A string that would run over the end of its line ends there. -/
def after (m : Mode) (c : Char) : Mode := ((scan m c).map Prod.fst).getD .code

/-- The word that the next character may go on with. -/
def State.begun (s : State) : List Char := if s.ended then [] else s.word

/-- Reads a character of code. -/
def State.inCode (s : State) (c : Char) : State :=
  if isBlankChar c then ⟨.code, s.word, true, s.found⟩
  else if isWordChar c then ⟨.code, s.begun ++ [c], false, s.found⟩
  else if c = '(' then
    ⟨.code, [], true, s.found ++ (Capability.ofName? (String.ofList s.word)).toList⟩
  else ⟨.code, [], true, s.found⟩

def step (s : State) (c : Char) : State :=
  match s.mode, after s.mode c with
  | .code, .code => s.inCode c
  -- a slash that begins no comment is an operator
  | .slash, .code => State.inCode ⟨.code, [], true, s.found⟩ c
  | .code, .string | .slash, .string => ⟨.string, [], true, s.found⟩
  | _, mode => ⟨mode, s.word, true, s.found⟩

def run (s : State) (text : List Char) : State := text.foldl step s

def start : State := ⟨.code, [], true, []⟩

end Calls

/-- The functions that a text calls, in the order of the text. -/
def called (text : String) : List Capability := (Calls.run Calls.start text.toList).found

namespace Calls

variable {s : State} {c : Char} {m : Mode} {a b : List Char}

@[simp] theorem run_nil (s : State) : run s [] = s := rfl

@[simp] theorem run_cons (s : State) (c : Char) (text : List Char) :
    run s (c :: text) = run (step s c) text := rfl

@[simp] theorem run_append (s : State) (a b : List Char) : run s (a ++ b) = run (run s a) b :=
  List.foldl_append

/-! ## One character -/

@[simp] theorem State.mode_inCode (s : State) (c : Char) : (s.inCode c).mode = .code := by
  unfold inCode
  repeat' split
  all_goals rfl

theorem mode_step (s : State) (c : Char) : (step s c).mode = after s.mode c := by
  unfold step
  split
  · next h => rw [h, State.mode_inCode]
  · next h => rw [h, State.mode_inCode]
  all_goals simp_all

/-- Only an opening parenthesis in code adds to what is found. -/
theorem State.found_inCode (hc : c ≠ '(') : (s.inCode c).found = s.found := by
  unfold inCode
  repeat' split
  all_goals rfl

theorem found_step_of_ne (hc : c ≠ '(') : (step s c).found = s.found := by
  unfold step
  split
  · exact State.found_inCode hc
  · exact State.found_inCode hc
  all_goals rfl

/-- Nothing is found in a string. -/
theorem found_step_string (hs : s.mode = .string) : (step s c).found = s.found := by
  unfold step
  rw [hs]

theorem found_isPrefix_step (s : State) (c : Char) : s.found <+: (step s c).found := by
  by_cases hc : c = '('
  · subst hc
    obtain ⟨mode, word, ended, found⟩ := s
    cases mode <;> first | exact List.prefix_rfl | exact List.prefix_append _ _
  · exact ⟨[], by rw [List.append_nil, found_step_of_ne hc]⟩

theorem found_isPrefix (s : State) (text : List Char) : s.found <+: (run s text).found := by
  induction text generalizing s with
  | nil => exact List.prefix_rfl
  | cons c text ih => exact (found_isPrefix_step s c).trans (ih _)

theorem run_found_of_not_mem (h : '(' ∉ a) : (run s a).found = s.found := by
  induction a generalizing s with
  | nil => rfl
  | cons c a ih =>
    rw [List.mem_cons, not_or] at h
    rw [run_cons, ih h.2, found_step_of_ne (Ne.symm h.1)]

/-- What a text calls is called as well when more text follows. -/
theorem mem_called_append {a : String} {f : Capability} (h : f ∈ called a) (b : String) :
    f ∈ called (a ++ b) := by
  rw [called, String.toList_append, run_append]
  exact (found_isPrefix _ _).subset h

/-- What is found does not depend on what was found before. -/
def State.behind (s : State) (earlier : List Capability) : State :=
  { s with found := earlier ++ s.found }

theorem step_behind (s : State) (earlier : List Capability) (c : Char) :
    step (s.behind earlier) c = (step s c).behind earlier := by
  have hcode : ∀ s : State, (s.behind earlier).inCode c = (s.inCode c).behind earlier := by
    intro s
    unfold State.inCode
    split
    · rfl
    split
    · rfl
    split
    · simp only [State.behind, List.append_assoc]
    · rfl
  obtain ⟨mode, word, ended, found⟩ := s
  simp only [step, State.behind]
  split
  · exact hcode ⟨.code, word, ended, found⟩
  · exact hcode ⟨.code, [], true, found⟩
  all_goals rfl

theorem run_behind (s : State) (earlier : List Capability) (text : List Char) :
    run (s.behind earlier) text = (run s text).behind earlier := by
  induction text generalizing s with
  | nil => rfl
  | cons c text ih => rw [run_cons, step_behind, ih, run_cons]

/-! ## Modes -/

theorem mode_run (s : State) (text : List Char) :
    (run s text).mode = text.foldl after s.mode := by
  induction text generalizing s with
  | nil => rfl
  | cons c text ih => rw [run_cons, ih, mode_step, List.foldl_cons]

/-- Brackets and calls are read in the same modes. -/
theorem mode_run_of_read {r : Brackets.State} {due : List Char} (hs : s.mode = m)
    (h : Brackets.read ⟨m, due⟩ a = some r) : (run s a).mode = r.mode := by
  induction a generalizing s m due with
  | nil =>
    cases h
    exact hs
  | cons c a ih =>
    rw [Brackets.read_cons, Option.bind_eq_some_iff] at h
    obtain ⟨⟨m', due'⟩, hstep, hread⟩ := h
    obtain ⟨effect, hscan, -⟩ := step_eq_some.1 hstep
    refine ih ?_ hread
    rw [mode_step, hs, after, hscan]
    rfl

/-- After a line break, the mode is settled and the last word has ended. -/
theorem step_newline (s : State) :
    (step s '\n').mode.isSettled = true ∧ (step s '\n').ended = true := by
  obtain ⟨mode, word, ended, found⟩ := s
  cases mode <;> exact ⟨rfl, rfl⟩

/-- From there, spaces change nothing. -/
theorem run_spaces (hs : s.mode.isSettled = true) (hended : s.ended = true) (n : Nat) :
    run s (List.replicate n ' ') = s := by
  have hspace : step s ' ' = s := by
    obtain ⟨mode, word, ended, found⟩ := s
    cases hended
    cases mode <;> first | rfl | cases hs
  induction n with
  | zero => rfl
  | succ n ih => rw [List.replicate_succ, run_cons, hspace, ih]

/-! ## Indentation -/

theorem run_indentLine (hs : s.mode.isSettled = true) (hended : s.ended = true) (width : Nat)
    (line : List Char) : run s (indentLine width line) = run s line := by
  unfold indentLine
  split
  · rfl
  · rw [run_append, run_spaces hs hended]

theorem run_unlines_indentLine (hs : s.mode.isSettled = true) (hended : s.ended = true)
    (width : Nat) (ls : List (List Char)) :
    run s (unlines (ls.map (indentLine width))) = run s (unlines ls) := by
  induction ls generalizing s with
  | nil => rfl
  | cons line ls ih =>
    cases ls with
    | nil =>
      simp only [unlines, List.map_cons, List.map_nil, List.intercalate_singleton]
      exact run_indentLine hs hended width line
    | cons next rest =>
      rw [List.map_cons, unlines_cons (by simp), unlines_cons (by simp), run_append, run_append,
        run_indentLine hs hended, run_cons, run_cons]
      exact ih (step_newline _).1 (step_newline _).2

/-- Indentation changes nothing at the beginning of a line. -/
theorem run_indentChars (hs : s.mode.isSettled = true) (hended : s.ended = true) (width : Nat)
    (text : List Char) : run s (indentChars width text) = run s text := by
  rw [indentChars, run_unlines_indentLine hs hended, unlines_lines]

/-! ## Pieces of code -/

/-- Read as code, a text calls the given functions, and code goes on after it. -/
def Reads (text : String) (calls : List Capability) : Prop :=
  ∀ s, s.mode = .code →
    (run s text.toList).mode = .code ∧ (run s text.toList).found = s.found ++ calls

variable {x y : String} {fs gs : List Capability}

theorem Reads.append (hx : Reads x fs) (hy : Reads y gs) : Reads (x ++ y) (fs ++ gs) := by
  intro s hs
  obtain ⟨hmode, hfound⟩ := hx s hs
  obtain ⟨hmode', hfound'⟩ := hy _ hmode
  rw [String.toList_append, run_append]
  exact ⟨hmode', by rw [hfound', hfound, List.append_assoc]⟩

/-- Appending what calls nothing. -/
theorem Reads.append_nil (hx : Reads x fs) (hy : Reads y []) : Reads (x ++ y) fs :=
  (List.append_nil fs) ▸ hx.append hy

/-- Below a line, a text may stand further to the right. -/
theorem Reads.below (hx : Reads (x ++ "\n") fs) (hy : Reads y gs) (width : Nat) :
    Reads (x ++ "\n" ++ indent width y) (fs ++ gs) := by
  intro s hs
  obtain ⟨hmode, hfound⟩ := hx s hs
  obtain ⟨hmode', hfound'⟩ := hy _ hmode
  have hline : run s (x ++ "\n").toList = step (run s x.toList) '\n' := by
    rw [String.toList_append, run_append]
    rfl
  have hended : (run s (x ++ "\n").toList).ended = true := by
    rw [hline]
    exact (step_newline _).2
  have hsettled : (run s (x ++ "\n").toList).mode.isSettled = true := by
    rw [hmode]
    rfl
  rw [String.toList_append, run_append, indent, String.toList_ofList,
    run_indentChars hsettled hended]
  exact ⟨hmode', by rw [hfound', hfound, List.append_assoc]⟩

/-- A text that leads from code to code and has no opening parenthesis. -/
def Quiet (text : String) : Prop := text.toList.foldl after .code = .code ∧ '(' ∉ text.toList

instance (text : String) : Decidable (Quiet text) := inferInstanceAs (Decidable (_ ∧ _))

theorem reads_of_quiet (h : Quiet x) : Reads x [] := by
  intro s hs
  rw [mode_run, hs, List.append_nil]
  exact ⟨h.1, run_found_of_not_mem h.2⟩

theorem reads_of_neutral (h : Neutral x) (hx : '(' ∉ x.toList) : Reads x [] := by
  intro s hs
  rw [List.append_nil]
  exact ⟨mode_run_of_read hs h, run_found_of_not_mem hx⟩

theorem not_mem_of_inert (h : Inert x) : '(' ∉ x.toList := by
  intro hx
  have hparen := h _ hx
  revert hparen
  decide

theorem reads_of_inert (h : Inert x) : Reads x [] :=
  reads_of_neutral h.neutral (not_mem_of_inert h)

theorem Reads.intercalate {sep : String} (hsep : Reads sep []) {texts : List String}
    (h : ∀ text ∈ texts, Reads text []) : Reads (sep.intercalate texts) [] := by
  induction texts with
  | nil => exact reads_of_quiet (x := "") (by decide)
  | cons text texts ih =>
    obtain ⟨htext, hrest⟩ := List.forall_mem_cons.1 h
    cases texts with
    | nil => rwa [String.intercalate_singleton]
    | cons next rest =>
      rw [String.intercalate_cons_cons]
      exact (htext.append_nil hsep).append_nil (ih hrest)

theorem Reads.join {texts : List String} (h : ∀ text ∈ texts, Reads text []) :
    Reads (String.join texts) [] := by
  induction texts with
  | nil => exact reads_of_quiet (x := "") (by decide)
  | cons text texts ih =>
    obtain ⟨htext, hrest⟩ := List.forall_mem_cons.1 h
    rw [String.join_cons]
    exact htext.append_nil (ih hrest)

/-- A character of the names that programs use. -/
def isNameChar (c : Char) : Bool := isWordChar c && !isBlankChar c && inCode c == (.code, .keeps)

/-- A word goes on with what stands right before it. -/
theorem run_word (hs : s.mode = .code) (h : a.all isNameChar = true) (hne : a ≠ []) :
    run s a = ⟨.code, s.begun ++ a, false, s.found⟩ := by
  induction a generalizing s with
  | nil => exact absurd rfl hne
  | cons c a ih =>
    obtain ⟨hc, ha⟩ : isNameChar c = true ∧ a.all isNameChar = true := by
      rwa [List.all_cons, Bool.and_eq_true] at h
    have hstep : step s c = ⟨.code, s.begun ++ [c], false, s.found⟩ := by
      simp only [isNameChar, Bool.and_eq_true, Bool.not_eq_true', beq_iff_eq] at hc
      simp [step, hs, after, scan, State.inCode, hc]
    rw [run_cons, hstep]
    by_cases hnil : a = []
    · rw [hnil]
      rfl
    · rw [ih rfl ha hnil]
      simp [State.begun]

/-! ## Literals -/

theorem not_mem_hexDigits {n : Nat} (h : n < 0x20 ∨ n = 0x2028 ∨ n = 0x2029) :
    '(' ∉ '\\' :: 'u' :: hexDigits 4 n := by
  have hsmall : ∀ k < 0x20, '(' ∉ '\\' :: 'u' :: hexDigits 4 k := by decide
  rcases h with h | rfl | rfl
  · exact hsmall n h
  · decide
  · decide

theorem not_mem_escape (hc : c ≠ '(') : '(' ∉ Literal.escape c := by
  unfold Literal.escape
  repeat (split; · decide)
  split
  · next h => exact not_mem_hexDigits (by simpa [or_assoc] using h)
  · rw [List.mem_singleton]
    exact Ne.symm hc

/-- An escaped character stays inside its literal and calls nothing. -/
theorem run_escape (hs : s.mode = .string) (c : Char) :
    (run s (Literal.escape c)).mode = .string ∧ (run s (Literal.escape c)).found = s.found := by
  refine ⟨mode_run_of_read hs (read_escape c), ?_⟩
  by_cases hc : c = '('
  · -- the parenthesis stands for itself, and it is read in a string
    subst hc
    exact found_step_string hs
  · exact run_found_of_not_mem (not_mem_escape hc)

theorem run_flatMap_escape (hs : s.mode = .string) (chars : List Char) :
    (run s (chars.flatMap Literal.escape)).mode = .string ∧
      (run s (chars.flatMap Literal.escape)).found = s.found := by
  induction chars generalizing s with
  | nil => exact ⟨hs, rfl⟩
  | cons c chars ih =>
    obtain ⟨hmode, hfound⟩ := run_escape hs c
    obtain ⟨hmode', hfound'⟩ := ih hmode
    rw [List.flatMap_cons, run_append]
    exact ⟨hmode', hfound'.trans hfound⟩

/-- A string literal calls nothing, whatever it says. -/
theorem reads_literal (text : String) : Reads (Literal.ofString text) [] := by
  rintro ⟨mode, word, ended, found⟩ ⟨⟩
  have hquote : step ⟨.code, word, ended, found⟩ '"' = ⟨.string, [], true, found⟩ := rfl
  obtain ⟨hmode, hfound⟩ := run_flatMap_escape (s := ⟨.string, [], true, found⟩) rfl text.toList
  rw [Literal.ofString, String.toList_ofList, Literal.write, Literal.writeWith, List.cons_append,
    run_cons, hquote, run_append, run_cons, run_nil, mode_step, hmode, found_step_string hmode,
    hfound, List.append_nil]
  exact ⟨rfl, rfl⟩

/-! ## Calls -/

/-- A word in front of a parenthesis is called if it is the name of a function. -/
theorem run_call {word gap : List Char} (hs : s.mode = .code) (h : word.all isNameChar = true)
    (hne : word ≠ []) (hgap : gap = [] ∨ gap = [' ']) :
    run s (word ++ gap ++ ['(']) = ⟨.code, [], true,
      s.found ++ (Capability.ofName? (String.ofList (s.begun ++ word))).toList⟩ := by
  rw [run_append, run_append, run_word hs h hne]
  rcases hgap with rfl | rfl <;> rfl

theorem ofName?_name (f : Capability) : Capability.ofName? f.name = some f := by
  cases f <;> decide

/-- The name of no function ends with the word. -/
def IsKeyword (word : String) : Prop :=
  word.toList ≠ [] ∧ word.toList.all isNameChar = true ∧
    ∀ f ∈ Capability.all, ¬ word.toList <:+ f.name.toList

instance (word : String) : Decidable (IsKeyword word) := inferInstanceAs (Decidable (_ ∧ _ ∧ _))

/-- Other words in front of a parenthesis call nothing. -/
theorem run_keyword {word gap : String} (hword : IsKeyword word) (hgap : gap = "" ∨ gap = " ")
    (hs : s.mode = .code) : run s (word ++ gap ++ "(").toList = ⟨.code, [], true, s.found⟩ := by
  obtain ⟨hne, hname, hsuffix⟩ := hword
  have hgap' : gap.toList = [] ∨ gap.toList = [' '] := by
    rcases hgap with rfl | rfl
    · exact .inl rfl
    · exact .inr rfl
  have hnone : Capability.ofName? (String.ofList (s.begun ++ word.toList)) = none := by
    refine List.find?_eq_none.2 fun f hf heq => hsuffix f hf ⟨s.begun, ?_⟩
    rw [beq_iff_eq.1 heq, String.toList_ofList]
  have htext : (word ++ gap ++ "(").toList = word.toList ++ gap.toList ++ ['('] := by simp
  rw [htext, run_call hs hname hne hgap', hnone, Option.toList_none, List.append_nil]

theorem reads_keyword {word gap : String} (hword : IsKeyword word) (hgap : gap = "" ∨ gap = " ") :
    Reads (word ++ gap ++ "(") [] := by
  intro s hs
  rw [run_keyword hword hgap hs, List.append_nil]
  exact ⟨rfl, rfl⟩

/-- The call of a function up to its parenthesis. -/
theorem reads_callHead (f : Capability) : Reads ("await " ++ f.name ++ "(") [f] := by
  intro s hs
  have hname : f.name.toList ≠ [] ∧ f.name.toList.all isNameChar = true := by
    cases f <;> decide
  have htext : ("await " ++ f.name ++ "(").toList =
      "await".toList ++ [' '] ++ (f.name.toList ++ [] ++ ['(']) := by simp
  have hblank : run s ("await".toList ++ [' ']) =
      ⟨.code, s.begun ++ "await".toList, true, s.found⟩ := by
    rw [run_append, run_word hs (by decide) (by decide)]
    rfl
  have hrun := run_call (s := ⟨.code, s.begun ++ "await".toList, true, s.found⟩) rfl hname.2
    hname.1 (.inl rfl)
  rw [htext, run_append, hblank, hrun]
  refine ⟨rfl, ?_⟩
  show s.found ++ (Capability.ofName? (String.ofList f.name.toList)).toList = _
  rw [String.ofList_toList, ofName?_name]
  rfl

/-! ## Expressions and statements -/

theorem not_mem_source {source : Source} (h : source.Plain) : '(' ∉ source.text.toList := by
  have hname : ∀ v, source.reads? = some v → '(' ∉ v.name.toList := fun v hv =>
    not_mem_of_inert (v.inert_name (h v hv))
  cases source with
  | timestamp => decide
  | result v => exact hname v rfl
  | instruments v =>
    rw [Source.text, String.toList_append, List.mem_append, not_or]
    exact ⟨hname v rfl, by decide⟩
  | symbol v =>
    rw [Source.text, String.toList_append, List.mem_append, not_or]
    exact ⟨hname v rfl, by decide⟩

theorem reads_source {source : Source} (h : source.Plain) : Reads source.text [] :=
  reads_of_neutral h.neutral (not_mem_source h)

theorem reads_argument {argument : Argument} (h : argument.Plain) : Reads argument.text [] := by
  cases argument with
  | bound source => exact reads_source (h source rfl)
  | now => exact reads_of_inert (Capability.inert_name .currentTimestamp)
  | literal l => exact reads_literal _
  | placeholder => exact reads_literal _
  | number x => exact reads_of_inert x.inert_literal
  | scaled source factor =>
    have hfactor : Reads " * " [] := reads_of_quiet (by decide)
    exact ((reads_source (h source rfl)).append_nil hfactor).append_nil
      (reads_of_inert (factor.inert_fixed 4))

theorem reads_comment {comment : String} (h : Inert comment) :
    Reads ("// " ++ comment ++ "\n") [] := by
  refine reads_of_neutral (neutral_comment h) ?_
  simp only [String.toList_append, List.mem_append, not_or]
  exact ⟨⟨by decide, not_mem_of_inert h⟩, by decide⟩

theorem reads_field {f : Field} (h : f.Plain) : Reads f.text [] := by
  have hfront : Reads ("  " ++ f.name ++ ": " ++ f.value.text ++ ",") [] :=
    ((((reads_of_quiet (x := "  ") (by decide)).append_nil (reads_of_inert h.name)).append_nil
      (reads_of_quiet (by decide))).append_nil (reads_argument h.value)).append_nil
      (reads_of_quiet (by decide))
  cases hc : f.comment with
  | none =>
    have htext : f.text = "  " ++ f.name ++ ": " ++ f.value.text ++ "," ++ "\n" := by
      simp [Field.text, hc]
    rw [htext]
    exact hfront.append_nil (reads_of_quiet (by decide))
  | some comment =>
    have htext : f.text = "  " ++ f.name ++ ": " ++ f.value.text ++ "," ++ " " ++
        ("// " ++ comment ++ "\n") := by
      simp only [Field.text, hc]
      exact String.toList_inj.1 (by simp)
    rw [htext]
    exact (hfront.append_nil (reads_of_quiet (by decide))).append_nil
      (reads_comment (h.comment comment hc))

/-- The arguments of a call are a parenthesis and what calls nothing. -/
theorem exists_arguments_eq {fields : List Field} (h : ∀ f ∈ fields, f.Plain) :
    ∃ rest, Call.arguments fields = "(" ++ rest ∧ Reads rest [] := by
  unfold Call.arguments
  split
  · exact ⟨")", rfl, reads_of_quiet (by decide)⟩
  · have hopen : Reads "\x7b\n" [] :=
      reads_of_quiet (by decide)
    have hclose : Reads "\x7d)" [] := reads_of_quiet (by decide)
    have hfields : Reads (String.join (fields.map Field.text)) [] := by
      refine .join fun text htext => ?_
      obtain ⟨f, hf, rfl⟩ := List.mem_map.1 htext
      exact reads_field (h f hf)
    refine ⟨_, ?_, (hopen.append_nil hfields).append_nil hclose⟩
    simp only [← String.append_assoc]
    rfl

theorem reads_call {c : Call} (h : c.Plain) : Reads c.text [c.function] := by
  obtain ⟨rest, hrest, hreads⟩ := exists_arguments_eq h.fields
  have hbehind : ∀ front : String, Reads front [] →
      Reads (front ++ "await " ++ c.function.name ++ Call.arguments c.fields ++ ";")
        [c.function] := by
    intro front hfront
    have htext : front ++ "await " ++ c.function.name ++ Call.arguments c.fields ++ ";" =
        front ++ ("await " ++ c.function.name ++ "(") ++ rest ++ ";" := by
      simp only [hrest, String.append_assoc]
    rw [htext]
    exact ((hfront.append (reads_callHead c.function)).append_nil hreads).append_nil
      (reads_of_quiet (by decide))
  unfold Call.text
  refine hbehind _ (Reads.append_nil ?_ ?_)
  · cases hn : c.note with
    | none => exact reads_of_quiet (by decide)
    | some note => exact reads_comment (h.note note hn)
  · cases hr : c.result with
    | none => exact reads_of_quiet (by decide)
    | some v =>
      exact ((reads_of_quiet (x := "const ") (by decide)).append_nil
        (reads_of_inert (v.inert_name (h.result v hr)))).append_nil (reads_of_quiet (by decide))

/-! ## Conditions -/

/-- The line of a condition opens a block, so code goes on after it. -/
theorem mode_run_brace (s : State) : (run s "\x7b\n".toList).mode = .code := by
  obtain ⟨mode, word, ended, found⟩ := s
  cases mode <;> rfl

/-- What stands in the line of a condition is called wherever the line stands, whatever its field is. -/
theorem reads_conditionLine (c : Condition) : Reads (conditionLine c) (called (conditionLine c)) := by
  have hkeyword : IsKeyword "if" := by decide
  have htext : (conditionLine c).toList =
      ("if" ++ " " ++ "(").toList ++ (c.text ++ ") ").toList ++ "\x7b\n".toList := by
    simp [conditionLine]
  have hrun : ∀ s : State, s.mode = .code → run s (conditionLine c).toList =
      (run start ((c.text ++ ") ").toList ++ "\x7b\n".toList)).behind s.found := by
    intro s hs
    rw [htext, List.append_assoc, run_append, run_keyword hkeyword (.inr rfl) hs, ← run_behind]
    congr 1
    exact congrArg _ (List.append_nil s.found).symm
  intro s hs
  have hcalled : called (conditionLine c) =
      (run start ((c.text ++ ") ").toList ++ "\x7b\n".toList)).found := by
    rw [called, hrun start rfl]
    rfl
  rw [hrun s hs, hcalled]
  refine ⟨?_, rfl⟩
  show (run start _).mode = .code
  rw [run_append]
  exact mode_run_brace _

theorem reads_optionalField {base : String} (hbase : Reads base []) {path : List String}
    (h : ∀ field ∈ path, Reads field []) : Reads (optionalField base path) [] := by
  induction path generalizing base with
  | nil => exact hbase
  | cons field path ih =>
    obtain ⟨hfield, hpath⟩ := List.forall_mem_cons.1 h
    exact ih ((hbase.append_nil (reads_of_quiet (by decide))).append_nil hfield) hpath

/-- The method that takes the latest candle is none of the functions. -/
theorem reads_lastCandleField {base : String} (hbase : Reads base []) (field : String) :
    Reads (lastCandleField base field) [] := by
  have hslice : Reads ("slice" ++ "" ++ "(" ++ "-1)") [] :=
    (reads_keyword (by decide) (.inl rfl)).append_nil
      (reads_of_quiet (by decide))
  have hdigits : Reads (String.ofList (natText (candleColumn field))) [] := by
    refine reads_of_inert fun c hc => ?_
    rw [String.toList_ofList] at hc
    exact isInert_of_mem_natText hc
  have hopen : Reads "[" [] := reads_of_quiet (by decide)
  have hclose : Reads "]" [] := reads_of_quiet (by decide)
  refine reads_optionalField hbase ?_
  simp only [List.forall_mem_cons]
  exact ⟨reads_of_quiet (by decide), reads_of_quiet (by decide), hslice,
    reads_of_quiet (by decide), (hopen.append_nil hdigits).append_nil hclose, nofun⟩

theorem not_mem_append (hx : '(' ∉ x.toList) (hy : '(' ∉ y.toList) : '(' ∉ (x ++ y).toList := by
  rw [String.toList_append, List.mem_append, not_or]
  exact ⟨hx, hy⟩

/-- What is compared calls nothing if its field has no parenthesis. -/
theorem called_access {c : Condition} (hvalue : ∀ b, c.value = some b → b.expr.Plain)
    (hfield : '(' ∉ c.field.toList) : called c.access = [] := by
  have hbase : ∀ base, '(' ∉ base.toList → c.access = base ++ c.field → called c.access = [] := by
    intro base hbase haccess
    rw [called, haccess]
    exact run_found_of_not_mem (not_mem_append hbase hfield)
  cases hv : c.value with
  | none =>
    refine hbase ("null" ++ "?.") (by decide) ?_
    simp only [Condition.access, hv, optionalField, List.foldl_cons, List.foldl_nil]
  | some b =>
    obtain ⟨source, shape⟩ := b
    have hsource : source.Plain := hvalue _ hv
    cases shape with
    | generic =>
      refine hbase (source.text ++ "?.") (not_mem_append (not_mem_source hsource) (by decide)) ?_
      simp only [Condition.access, hv, optionalField, List.foldl_cons, List.foldl_nil]
    | quote =>
      refine hbase (source.text ++ "?." ++ "payload" ++ "?.")
        (not_mem_append (not_mem_append (not_mem_append (not_mem_source hsource) (by decide))
          (by decide)) (by decide)) ?_
      simp only [Condition.access, hv, optionalField, List.foldl_cons, List.foldl_nil]
    | candle =>
      -- the field only chooses a column
      have haccess : c.access = lastCandleField source.text c.field := by
        simp only [Condition.access, hv]
      rw [haccess]
      exact (reads_lastCandleField (reads_source hsource) c.field start rfl).2

/-- A condition on a field without parentheses calls nothing. -/
theorem called_conditionLine {c : Condition} (hvalue : ∀ b, c.value = some b → b.expr.Plain)
    (hfield : '(' ∉ c.field.toList) : called (conditionLine c) = [] := by
  have hkeyword : IsKeyword "if" := by decide
  have hrest : '(' ∉ (" " ++ (c.operator.symbol ++ " " ++ c.compareValue.literal) ++
      ") \x7b\n").toList :=
    not_mem_append (not_mem_append (by decide) (not_mem_of_inert c.inert_comparison)) (by decide)
  have htext : (conditionLine c).toList = ("if" ++ " " ++ "(").toList ++ (c.access.toList ++
      (" " ++ (c.operator.symbol ++ " " ++ c.compareValue.literal) ++ ") \x7b\n").toList) := by
    rw [conditionLine_eq]
    simp
  rw [called, htext, run_append, run_keyword hkeyword (.inr rfl) rfl, run_append,
    run_found_of_not_mem hrest]
  exact called_access hvalue hfield

/-! ## Blocks -/

theorem reads_braced (h : Reads x fs) : Reads (braced x) fs := by
  have hline : "\x7b\n" = "\x7b" ++ "\n" := by decide
  have hopen : Reads ("\x7b" ++ "\n") [] := reads_of_quiet (by decide)
  have hclose : Reads "\n\x7d" [] := reads_of_quiet (by decide)
  rw [braced, hline]
  exact (hopen.below h 2).append_nil hclose

theorem reads_joinStatements_cons {text : String} {rest : List String} (htext : Reads text fs)
    (hrest : Reads (joinStatements rest) gs) : Reads (joinStatements (text :: rest)) (fs ++ gs) := by
  cases rest with
  | nil =>
    obtain rfl : [] = gs := (hrest start rfl).2
    rw [List.append_nil, joinStatements, String.intercalate_singleton]
    exact htext
  | cons next rest =>
    have hsep : Reads "\n\n" [] := reads_of_quiet (by decide)
    rw [joinStatements, String.intercalate_cons_cons]
    exact (htext.append_nil hsep).append hrest

theorem reads_loopText {item : Variable} {array : Option Source} {body : String}
    (hitem : Inert item.stem) (harray : ∀ s, array = some s → s.Plain) (hbody : Reads body fs) :
    Reads (loopText item array body) fs := by
  have hkeyword : Reads ("for" ++ " " ++ "(") [] := reads_keyword (by decide) (.inr rfl)
  have hline : "for (const " = "for" ++ " " ++ "(" ++ "const " := by decide
  have hopen : Reads "for (const " [] := by
    rw [hline]
    exact hkeyword.append_nil (reads_of_quiet (by decide))
  have hclose : Reads " ?? []) " [] := reads_of_quiet (by decide)
  have hname := reads_of_inert (item.inert_name hitem)
  have hloop : ∀ text : String, Reads text [] →
      Reads ("for (const " ++ item.name ++ " of " ++ text ++ " ?? []) " ++ braced body) fs := by
    intro text htext
    have hhead := (((hopen.append_nil hname).append_nil
      (reads_of_quiet (x := " of ") (by decide))).append_nil htext).append_nil hclose
    exact hhead.append (reads_braced hbody)
  cases array with
  | none => exact hloop "[]" (reads_of_quiet (by decide))
  | some source => exact hloop source.text (reads_source (harray source rfl))

theorem reads_branchText {c : Condition} {yes no : List String}
    (hyes : Reads (joinStatements yes) fs) (hno : Reads (joinStatements no) gs) :
    Reads (branchText c yes no) (called (conditionLine c) ++ fs ++ gs) := by
  have hline : conditionLine c = "if (" ++ c.text ++ ") \x7b" ++ "\n" :=
    String.toList_inj.1 (by simp [conditionLine])
  have hopen := reads_conditionLine c
  have hclose : Reads "\n\x7d" [] := reads_of_quiet (by decide)
  have hfirst : Reads (conditionLine c ++ (indent 2 (joinStatements yes) ++ "\n\x7d"))
      (called (conditionLine c) ++ fs) := by
    rw [← String.append_assoc]
    refine Reads.append_nil ?_ hclose
    rw [hline] at hopen ⊢
    exact hopen.below hyes 2
  rw [branchText_eq]
  refine hfirst.append ?_
  cases no with
  | nil =>
    obtain rfl : [] = gs := (hno start rfl).2
    exact reads_of_quiet (by decide)
  | cons text rest => exact (reads_of_quiet (x := " else ") (by decide)).append (reads_braced hno)

end Calls

open Calls

namespace Block

/-- The functions that a block calls, those in the lines of its conditions included. -/
def called : Block → List Capability
  | .nil => []
  | .call c rest => c.function :: rest.called
  | .loop _ _ body rest => body.called ++ rest.called
  | .branch condition yes no => TradeFlow.called (conditionLine condition) ++ yes.called ++ no.called

/-- A plain block calls these functions, whatever the fields of its conditions are. -/
theorem Plain.reads {allowed : String → Prop} {b : Block} (h : b.Plain allowed) :
    Reads b.text b.called := by
  have hnil : Reads (joinStatements []) [] := reads_of_quiet (by decide)
  unfold text
  induction b with
  | nil => exact hnil
  | call c rest ih =>
    obtain ⟨hc, hrest⟩ := h
    exact reads_joinStatements_cons (reads_call hc) (ih hrest)
  | loop item array body rest ihbody ihrest =>
    obtain ⟨hitem, harray, hbody, hrest⟩ := h
    exact reads_joinStatements_cons (reads_loopText hitem harray (ihbody hbody)) (ihrest hrest)
  | branch condition yes no ihyes ihno =>
    obtain ⟨-, -, hyes, hno⟩ := h
    have hbranch := reads_branchText (c := condition) (ihyes hyes) (ihno hno)
    have hjoin := reads_joinStatements_cons hbranch hnil
    rwa [List.append_nil] at hjoin

end Block

/-! ## Programs -/

namespace Program

theorem reads_import : Reads "import \x7b ganaka \x7d from \"@ganaka/sdk\";\n\nawait " [] :=
  reads_of_quiet (by decide +kernel)

/-- The beginning of a program, cut at the words in front of parentheses. -/
theorem beginning_eq (capabilities : List Capability) : beginning capabilities =
    "import \x7b ganaka \x7d from \"@ganaka/sdk\";\n\nawait " ++ ("ganaka" ++ "" ++ "(") ++
      "\x7b\n  fn: " ++ ("async" ++ " " ++ "(") ++ "\x7b " ++
      ", ".intercalate (capabilities.map Capability.name) ++ " \x7d) => \x7b" ++ "\n" := by
  have hcut : "import \x7b ganaka \x7d from \"@ganaka/sdk\";\n\nawait ganaka(\x7b\n  fn: async (\x7b " =
      "import \x7b ganaka \x7d from \"@ganaka/sdk\";\n\nawait " ++ ("ganaka" ++ "" ++ "(") ++
        "\x7b\n  fn: " ++ ("async" ++ " " ++ "(") ++ "\x7b " := by decide
  have hline : " \x7d) => \x7b\n" = " \x7d) => \x7b" ++ "\n" := by decide
  -- the texts are named, for literals are slow to compare
  have hnamed : ∀ front cut back arrow newline : String, front = cut → back = arrow ++ newline →
      ∀ names : String, front ++ names ++ back = cut ++ names ++ arrow ++ newline := by
    rintro _ cut _ arrow newline rfl rfl names
    rw [String.append_assoc, String.append_assoc, String.append_assoc]
  exact hnamed _ _ _ _ _ hcut hline _

/-- Up to its body, a program calls what runs it and nothing of its own. -/
theorem reads_beginning (capabilities : List Capability) : Reads (beginning capabilities) [] := by
  have hganaka : Reads ("ganaka" ++ "" ++ "(") [] := reads_keyword (by decide) (.inl rfl)
  have hfield : Reads "\x7b\n  fn: " [] := reads_of_quiet (by decide)
  have hasync : Reads ("async" ++ " " ++ "(") [] := reads_keyword (by decide) (.inr rfl)
  have hopen : Reads "\x7b " [] := reads_of_quiet (by decide)
  have hnames : Reads (", ".intercalate (capabilities.map Capability.name)) [] := by
    refine .intercalate (reads_of_quiet (by decide)) fun text htext => ?_
    obtain ⟨f, -, rfl⟩ := List.mem_map.1 htext
    exact reads_of_inert f.inert_name
  have harrow : Reads " \x7d) => \x7b" [] := reads_of_quiet (by decide)
  have hline : Reads "\n" [] := reads_of_quiet (by decide)
  rw [beginning_eq]
  exact ((((((reads_import.append_nil hganaka).append_nil hfield).append_nil hasync).append_nil
    hopen).append_nil hnames).append_nil harrow).append_nil hline

theorem reads_nameLine (settings : StrategyConfig) : Reads (nameLine settings) [] := by
  unfold nameLine
  split
  · exact reads_of_quiet (by decide)
  · exact ((reads_of_quiet (x := "\n  name: ") (by decide)).append_nil
      (reads_literal _)).append_nil (reads_of_quiet (by decide))

theorem reads_tagsLine (settings : StrategyConfig) : Reads (tagsLine settings) [] := by
  have hopen : Reads "\n  tags: [" [] := reads_of_quiet (by decide)
  have hclose : Reads "]," [] := reads_of_quiet (by decide)
  have htags : Reads (",".intercalate ((tagLiterals settings.tags).map TextLiteral.text)) [] := by
    refine .intercalate (reads_of_quiet (by decide)) fun text htext => ?_
    obtain ⟨l, -, rfl⟩ := List.mem_map.1 htext
    exact reads_literal _
  unfold tagsLine
  split
  · exact reads_of_quiet (by decide)
  · exact (hopen.append_nil htags).append_nil hclose

theorem reads_ending (settings : StrategyConfig) : Reads (ending settings) [] := by
  have hbody : Reads "\n  \x7d,\n" [] := reads_of_quiet (by decide)
  have hclose : Reads "\n\x7d);\n" [] := reads_of_quiet (by decide)
  have hcomma : Reads ",\n" [] := reads_of_quiet (by decide)
  have htimes : Reads ("  startTime: " ++ (strategyLiteral "startTime" settings.startTime).text ++
      ",\n" ++ "  endTime: " ++ (strategyLiteral "endTime" settings.endTime).text ++ ",\n") [] :=
    (((((reads_of_quiet (x := "  startTime: ") (by decide)).append_nil (reads_literal _)).append_nil
      hcomma).append_nil (reads_of_quiet (by decide))).append_nil (reads_literal _)).append_nil hcomma
  have hsettings := ((((htimes.append_nil (reads_of_quiet (x := "  intervalMinutes: ")
    (by decide))).append_nil (reads_of_inert (inert_intText settings.intervalMinutes))).append_nil
    (reads_of_quiet (x := ",") (by decide))).append_nil (reads_nameLine settings)).append_nil
    (reads_tagsLine settings)
  exact hbody.append_nil (hsettings.append_nil hclose)

/-- A program with a plain body calls what its body calls. -/
theorem called_source {allowed : String → Prop} {p : Program} (h : p.body.Plain allowed) :
    called p.source = p.body.called := by
  have hbegin := reads_beginning p.capabilities
  rw [beginning_eq] at hbegin
  have hreads := (hbegin.below h.reads 4).append_nil (reads_ending p.settings)
  rw [← beginning_eq, ← source_eq] at hreads
  exact (hreads start rfl).2

end Program

end TradeFlow
