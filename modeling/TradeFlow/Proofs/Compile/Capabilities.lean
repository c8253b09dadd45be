import TradeFlow.Proofs.Compile.Bindings
import TradeFlow.Proofs.Compile.Layout

/-!
The capabilities that a program names.

Lowering marks a function each time that it makes a call of it, also in blocks that are not at the top
level, and the program names what was marked. What is proved:

1. `Lowered.mem_required_iff`: lowering a flow marks the functions of the calls in its block, and
   nothing else.
2. `Graph.Unfolds.function_calls`: the calls of a block are, in order, those of the nodes of its flow.
3. `Block.exists_infix_of_mem_calls`: every call of a block has its lines in the text of the block, so
   a block that is left out has no calls.
4. `Program.lines_source`: the lines of a program, with the names of its capabilities on the fourth.
-/

namespace TradeFlow

open Lower

/-- The calls of a block at any depth, in the order of the text. -/
def Block.calls : Block → List Call
  | .nil => []
  | .call c rest => c :: rest.calls
  | .loop _ _ body rest => body.calls ++ rest.calls
  | .branch _ yes no => yes.calls ++ no.calls

/-- The function that nodes of a kind call. -/
def Kind.function? : Kind → Option Capability
  | .strategyConfig => none
  | .fetchShortlist => some .fetchShortlist
  | .fetchShortlistPersistence => some .fetchShortlistPersistence
  | .fetchCandles => some .fetchCandles
  | .fetchQuote => some .fetchQuote
  | .fetchDates => some .fetchDates
  | .fetchHolidays => some .fetchHolidays
  | .placeOrder => some .placeOrder
  | .forEach => none
  | .conditional => none

/-- The function that a node calls. -/
def Node.function? (n : Node) : Option Capability := n.kind?.bind Kind.function?

theorem Lower.function?_actionKind (a : Action) : (actionKind a).function? = some a.function := by
  cases a <;> rfl

/-! ## What lowering marks -/

section Marks

variable {links : List Link} {n : Node} {a : Action} {call : Call} {flow : Control}
  {known known' : Known} {block : Block}

theorem action_required (h : Lower.action links known n a = .ok (known', call)) :
    known'.required = call.function :: known.required := by
  have hfunction := function_of_action h
  cases a with
  | placeOrder s =>
    obtain ⟨-, rfl⟩ := order_eq_ok h
    rw [hfunction]
    rfl
  | _ =>
    cases h
    rfl

/-- A function is marked after a flow if it was before or if the block of the flow calls it. -/
theorem Lowered.mem_required_iff (h : Lowered links flow known known' block) {f : Capability} :
    f ∈ known'.required ↔ f ∈ known.required ∨ ∃ c ∈ block.calls, c.function = f := by
  induction h with
  | stop => simp [Block.calls]
  | silent _ ih => exact ih
  | action ha _ ih =>
    rw [ih, action_required ha]
    simp only [Block.calls, List.mem_cons, exists_eq_or_imp]
    rw [or_assoc, or_left_comm, eq_comm]
  | @loop n _ _ known _ _ _ _ _ _ ihbody ihrest =>
    -- the item of the loop is bound before its body, which marks nothing
    have hentered : (known.entered n).required = known.required := rfl
    rw [ihrest, ihbody, hentered]
    simp only [Block.calls, List.mem_append, or_and_right, exists_or, or_assoc]
  | branch _ _ ihyes ihno =>
    rw [ihno, ihyes]
    simp only [Block.calls, List.mem_append, or_and_right, exists_or, or_assoc]

end Marks

theorem Capability.mem_all (f : Capability) : f ∈ all := by
  cases f <;> decide

theorem Capability.nodup_all : all.Nodup := by
  decide

namespace Scope

variable {ε : Type}

theorem mem_capabilities {s : Scope ε} {f : Capability} :
    f ∈ s.capabilities ↔ f ∈ s.required := by
  simp [capabilities, Capability.mem_all]

theorem capabilities_sublist (s : Scope ε) : s.capabilities.Sublist Capability.all :=
  List.filter_sublist

end Scope

/-! ## Which nodes call -/

namespace Graph

variable {g : Graph} {ref : OutputRef} {links : List Link} {flow : Control} {known known' : Known}
  {block : Block}

/-- The calls of a block are those of the nodes of its flow. Loops and conditions call nothing
themselves, so it does not matter that they come after what they own. -/
theorem Unfolds.function_calls (h : g.Unfolds ref flow)
    (hlow : Lowered links flow known known' block) :
    block.calls.map (·.function) = flow.occurrences.filterMap Node.function? := by
  induction h generalizing known known' block with
  | stop hn =>
    cases hlow
    rfl
  | @silent _ n _ hn hr _ ih =>
    cases hlow with
    | silent hlow =>
      have hnone : n.function? = none := by rw [Node.function?, Node.kind?_of_silent hr]; rfl
      rw [Control.occurrences, List.filterMap_cons_none hnone, ih hlow]
  | @action _ n a _ hn hr _ ih =>
    cases hlow with
    | action ha hlow =>
      have hsome : n.function? = some a.function := by
        rw [Node.function?, Node.kind?_of_action hr]
        exact function?_actionKind a
      rw [Control.occurrences, List.filterMap_cons_some hsome, Block.calls, List.map_cons, ih hlow,
        function_of_action ha]
  | @loop _ n _ _ hn hr _ _ ihbody ihrest =>
    cases hlow with
    | loop hbody hrest =>
      have hnone : n.function? = none := by rw [Node.function?, Node.kind?_of_loop hr]; rfl
      rw [Control.occurrences, List.filterMap_append, List.filterMap_cons_none hnone, Block.calls,
        List.map_append, ihbody hbody, ihrest hrest]
  | @branch _ n _ _ _ hn hr _ _ ihyes ihno =>
    cases hlow with
    | branch hyes hno =>
      have hnone : n.function? = none := by rw [Node.function?, Node.kind?_of_branch hr]; rfl
      rw [Control.occurrences, List.filterMap_append, List.filterMap_append,
        List.filterMap_cons_none hnone, Block.calls, List.map_append, ihyes hyes, ihno hno]
      exact (List.append_nil _).symm

theorem Unfolds.exists_call_iff (h : g.Unfolds ref flow)
    (hlow : Lowered links flow known known' block) (f : Capability) :
    (∃ c ∈ block.calls, c.function = f) ↔ ∃ n ∈ flow.occurrences, n.function? = some f := by
  rw [← List.mem_map, h.function_calls hlow, List.mem_filterMap]

end Graph

/-! ## Calls in the text -/

theorem infix_chainLines {s : List Line} {statements : List (List Line)} (h : s ∈ statements) :
    s <:+: chainLines statements := by
  induction statements with
  | nil => cases h
  | cons first rest ih =>
    cases rest with
    | nil =>
      rw [List.mem_singleton.1 h]
      exact List.infix_rfl
    | cons next rest =>
      rw [chainLines]
      · rcases List.mem_cons.1 h with rfl | h
        · exact (List.prefix_append _ _).isInfix
        · have hrest := (ih h).trans (List.suffix_cons [] _).isInfix
          exact hrest.trans (List.suffix_append first _).isInfix
      · simp

/-- What stands in a statement of an owned block stands in the lines around it. -/
theorem infix_of_mem_statements {found : List Line} {depth : Nat} {s : String}
    {statements : List String} {before after : List Line} (hs : s ∈ statements)
    (h : found <:+: linesAt depth s) :
    found <:+: before ++ chainLines (statements.map (linesAt depth)) ++ after := by
  have hchain : found <:+: chainLines (statements.map (linesAt depth)) :=
    h.trans (infix_chainLines (List.mem_map_of_mem hs))
  exact hchain.trans (List.infix_append before _ after)

/-- The lines of a call stand in those of a statement of the chain, further to the right the deeper
the call is nested. -/
theorem Block.exists_infix_of_mem_calls {b : Block} {c : Call} (h : c ∈ b.calls) (depth : Nat) :
    ∃ s ∈ b.statements, ∃ inner, linesAt inner c.text <:+: linesAt depth s := by
  induction b generalizing depth with
  | nil => cases h
  | call first rest ih =>
    rcases List.mem_cons.1 h with rfl | h
    · exact ⟨_, List.mem_cons_self, depth, List.infix_rfl⟩
    · obtain ⟨s, hs, inner, hinfix⟩ := ih h depth
      exact ⟨s, List.mem_cons_of_mem _ hs, inner, hinfix⟩
  | loop item array body rest ihbody ihrest =>
    rcases List.mem_append.1 h with h | h
    · obtain ⟨s, hs, inner, hinfix⟩ := ihbody h (depth + 1)
      refine ⟨_, List.mem_cons_self, inner, ?_⟩
      rw [linesAt_loopText]
      exact infix_of_mem_statements hs hinfix
    · obtain ⟨s, hs, inner, hinfix⟩ := ihrest h depth
      exact ⟨s, List.mem_cons_of_mem _ hs, inner, hinfix⟩
  | branch condition yes no ihyes ihno =>
    refine ⟨_, List.mem_singleton_self _, ?_⟩
    rcases List.mem_append.1 h with h | h
    · obtain ⟨s, hs, inner, hinfix⟩ := ihyes h (depth + 1)
      refine ⟨inner, ?_⟩
      by_cases hno : no.statements = []
      · rw [hno, linesAt_branchText_nil]
        exact infix_of_mem_statements hs hinfix
      · rw [linesAt_branchText_cons _ _ _ hno, List.append_assoc, List.append_assoc]
        exact infix_of_mem_statements hs hinfix
    · -- a call in the second block is part of a statement, so the block is not left out
      obtain ⟨s, hs, inner, hinfix⟩ := ihno h (depth + 1)
      refine ⟨inner, ?_⟩
      rw [linesAt_branchText_cons _ _ _ (List.ne_nil_of_mem hs)]
      exact infix_of_mem_statements hs hinfix

/-- A piece of text without a line break lies within one line. -/
theorem exists_line_of_infix {piece text : List Char} (hpiece : '\n' ∉ piece)
    (h : piece <:+: text) : ∃ line ∈ lines text, piece <:+: line := by
  obtain ⟨before, after, rfl⟩ := h
  rw [List.append_assoc]
  induction before with
  | nil =>
    obtain ⟨first, rest, hlines⟩ := List.exists_cons_of_ne_nil (lines_ne_nil after)
    refine ⟨piece ++ first, ?_, (List.prefix_append _ _).isInfix⟩
    rw [List.nil_append, lines_append_of_not_mem hpiece, hlines]
    exact List.mem_cons_self
  | cons c before ih =>
    obtain ⟨line, hline, hinfix⟩ := ih
    by_cases hc : c = '\n'
    · refine ⟨line, ?_, hinfix⟩
      rw [hc]
      have hcut := lines_append [] (before ++ (piece ++ after))
      exact hcut ▸ List.mem_append_right _ hline
    · -- the character only makes the first line longer
      obtain ⟨first, rest, hlines⟩ :=
        List.exists_cons_of_ne_nil (lines_ne_nil (before ++ (piece ++ after)))
      have hcons : lines (c :: (before ++ (piece ++ after))) = (c :: first) :: rest := by
        have hchar := lines_append_of_not_mem (a := [c]) (by simpa using Ne.symm hc)
          (before ++ (piece ++ after))
        rw [hlines] at hchar
        exact hchar
      rw [List.cons_append, hcons]
      rw [hlines] at hline
      rcases List.mem_cons.1 hline with rfl | hline
      · exact ⟨c :: line, List.mem_cons_self, hinfix.trans (List.suffix_cons c line).isInfix⟩
      · exact ⟨line, List.mem_cons_of_mem _ hline, hinfix⟩

/-- The piece stands in a line of the text also when the text is indented. -/
theorem exists_linesAt_of_infix {piece : List Char} {text : String} (hpiece : '\n' ∉ piece)
    (h : piece <:+: text.toList) (depth : Nat) : ∃ line ∈ linesAt depth text, piece <:+: line := by
  obtain ⟨line, hline, hinfix⟩ := exists_line_of_infix hpiece h
  refine ⟨_, List.mem_map_of_mem hline, ?_⟩
  unfold indentLine
  split
  · exact hinfix
  · exact hinfix.trans (List.suffix_append _ _).isInfix

/-- How the call of a function begins. -/
def Capability.callHead (f : Capability) : String := "await " ++ f.name ++ "("

theorem Capability.newline_not_mem_name (f : Capability) : '\n' ∉ f.name.toList := by
  cases f <;> decide

theorem newline_not_mem_append {a b : String} (ha : '\n' ∉ a.toList) (hb : '\n' ∉ b.toList) :
    '\n' ∉ (a ++ b).toList := by
  rw [String.toList_append, List.mem_append, not_or]
  exact ⟨ha, hb⟩

theorem Capability.newline_not_mem_callHead (f : Capability) : '\n' ∉ f.callHead.toList :=
  newline_not_mem_append (newline_not_mem_append (by decide) f.newline_not_mem_name) (by decide)

theorem Call.exists_arguments_eq (fields : List Field) :
    ∃ rest, (Call.arguments fields).toList = '(' :: rest := by
  unfold Call.arguments
  split
  · exact ⟨[')'], rfl⟩
  · exact ⟨_, by simp only [String.toList_append]; rfl⟩

theorem Call.callHead_infix (c : Call) : c.function.callHead.toList <:+: c.text.toList := by
  obtain ⟨rest, hrest⟩ := exists_arguments_eq c.fields
  have happend : ∀ front : String,
      (front ++ "await " ++ c.function.name ++ arguments c.fields ++ ";").toList =
        front.toList ++ c.function.callHead.toList ++ (rest ++ ";".toList) := by
    intro front
    simp [Capability.callHead, hrest]
  -- in front of the call may stand a note and the name of the result
  exact ⟨_, _, (happend _).symm⟩

/-- A line of a call names its function, however far to the right the call stands. -/
theorem Call.exists_line (c : Call) (depth : Nat) :
    ∃ line ∈ linesAt depth c.text, c.function.callHead.toList <:+: line :=
  exists_linesAt_of_infix c.function.newline_not_mem_callHead c.callHead_infix depth

/-! ## The lines of a program -/

namespace Program

/-- The line that names the capabilities. -/
def functionLine (capabilities : List Capability) : String :=
  "  fn: async (\x7b " ++ ", ".intercalate (capabilities.map Capability.name) ++ " \x7d) => \x7b"

/-- The lines in front of the body. -/
def heading (capabilities : List Capability) : List String :=
  ["import \x7b ganaka \x7d from \"@ganaka/sdk\";", "", "await ganaka(\x7b",
    functionLine capabilities]

theorem newline_not_mem_intercalate {sep : List Char} (hsep : '\n' ∉ sep) {ls : List Line}
    (h : ∀ line ∈ ls, '\n' ∉ line) : '\n' ∉ sep.intercalate ls := by
  induction ls with
  | nil => exact List.not_mem_nil
  | cons line rest ih =>
    obtain ⟨hline, hrest⟩ := List.forall_mem_cons.1 h
    cases rest with
    | nil =>
      rw [List.intercalate_singleton]
      exact hline
    | cons next rest =>
      rw [List.intercalate_cons_cons, List.mem_append, List.mem_append, not_or, not_or]
      exact ⟨⟨hline, hsep⟩, ih hrest⟩

theorem newline_not_mem_functionLine (capabilities : List Capability) :
    '\n' ∉ (functionLine capabilities).toList := by
  have hnames : '\n' ∉ (", ".intercalate (capabilities.map Capability.name)).toList := by
    rw [String.toList_intercalate]
    refine newline_not_mem_intercalate (by decide) ?_
    intro line hline
    simp only [List.map_map, List.mem_map] at hline
    obtain ⟨f, -, rfl⟩ := hline
    exact f.newline_not_mem_name
  exact newline_not_mem_append (newline_not_mem_append (by decide) hnames) (by decide)

theorem newline_not_mem_heading (capabilities : List Capability) :
    ∀ line ∈ heading capabilities, '\n' ∉ line.toList := by
  refine List.forall_mem_cons.2 ⟨by decide, ?_⟩
  refine List.forall_mem_cons.2 ⟨by decide, ?_⟩
  refine List.forall_mem_cons.2 ⟨by decide, ?_⟩
  exact List.forall_mem_singleton.2 (newline_not_mem_functionLine capabilities)

/-- The text with the given lines in front. -/
def under (heading : List String) (text : String) : String :=
  heading.foldr (fun line text => line ++ "\n" ++ text) text

theorem lines_under {heading : List String} (h : ∀ line ∈ heading, '\n' ∉ line.toList)
    (text : String) :
    lines (under heading text).toList = heading.map String.toList ++ lines text.toList := by
  induction heading with
  | nil => rfl
  | cons line heading ih =>
    obtain ⟨hline, hheading⟩ := List.forall_mem_cons.1 h
    have htext : (under (line :: heading) text).toList =
        line.toList ++ '\n' :: (under heading text).toList := by
      simp [under]
    have hsingle : lines line.toList = [line.toList] := by
      have happend := lines_append_of_not_mem hline []
      rw [List.append_nil] at happend
      exact happend.trans (by simp [lines])
    rw [htext, lines_append, hsingle, ih hheading]
    rfl

theorem source_eq_under (p : Program) :
    p.source = under (heading p.capabilities)
      (indent (2 * 2) p.body.text ++ "\n" ++ ("  \x7d,\n" ++ closing p.settings)) := by
  have hopening : "import \x7b ganaka \x7d from \"@ganaka/sdk\";\n\nawait ganaka(\x7b\n  fn: async (\x7b "
      = "import \x7b ganaka \x7d from \"@ganaka/sdk\";" ++ "\n" ++ ("" ++ "\n" ++ ("await ganaka(\x7b"
        ++ "\n" ++ "  fn: async (\x7b ")) := by decide
  have harrow : " \x7d) => \x7b\n" = " \x7d) => \x7b" ++ "\n" := by decide
  have hend : "\n  \x7d,\n" = "\n" ++ "  \x7d,\n" := by decide
  -- the three texts are named, for literals are slow to compare
  have hnamed : ∀ front arrow back first second third start arrowEnd last newline : String,
      front = first ++ newline ++ (second ++ newline ++ (third ++ newline ++ start)) →
      arrow = arrowEnd ++ newline → back = newline ++ last → ∀ names body settings : String,
      front ++ names ++ arrow ++ body ++ back ++ settings =
        first ++ newline ++ (second ++ newline ++ (third ++ newline ++ (start ++ names ++ arrowEnd
          ++ newline ++ (body ++ newline ++ (last ++ settings))))) := by
    rintro _ _ _ first second third start arrowEnd last newline rfl rfl rfl names body settings
    simp only [String.append_assoc]
  unfold source opening
  exact hnamed _ _ _ _ _ _ _ _ _ _ hopening harrow hend _ _ _

/-- A program is its heading, its body two levels deep and the settings. -/
theorem lines_source (p : Program) :
    lines p.source.toList = (heading p.capabilities).map String.toList ++ linesAt 2 p.body.text ++
      lines ("  \x7d,\n" ++ closing p.settings).toList := by
  have hbody : ∀ rest : String, lines (indent (2 * 2) p.body.text ++ "\n" ++ rest).toList =
      linesAt 2 p.body.text ++ lines rest.toList := by
    intro rest
    have htext : (indent (2 * 2) p.body.text ++ "\n" ++ rest).toList =
        indentChars (2 * 2) p.body.text.toList ++ '\n' :: rest.toList := by
      simp [indent]
    rw [htext, lines_append, lines_indentChars]
    rfl
  rw [source_eq_under, lines_under (newline_not_mem_heading p.capabilities), hbody,
    List.append_assoc]

end Program

end TradeFlow
