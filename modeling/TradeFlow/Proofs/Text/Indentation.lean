import TradeFlow.Proofs.Text.Lines

/-!
The laws of indentation.

A statement is indented once for each block around it, so what becomes of a nested text is decided by
the laws below and not by the order of the steps. What is proved:

1. `lines_indent`: indentation works on each line alone, and so it goes through parts that are joined
   by a newline (`indent_append_newline`).
2. `unindent_indent`: taking the spaces away gives back every text, so different texts stay different.
3. `indent_laws`: the laws together, with those of nested indentation, of the number of lines and of
   blank texts.
-/

namespace TradeFlow

/-- Takes `width` characters off the front of a line unless it is blank. -/
def unindentLine (width : Nat) (line : List Char) : List Char :=
  if isBlank line then line else line.drop width

/-- Takes the spaces of an indentation away again. -/
def unindent (width : Nat) (text : String) : String :=
  String.ofList (unlines ((lines text.toList).map (unindentLine width)))

theorem lines_indent (width : Nat) (text : String) :
    lines (indent width text).toList = (lines text.toList).map (indentLine width) := by
  rw [indent, String.toList_ofList, lines_indentChars]

/-- A text is known by its lines. -/
theorem eq_of_lines_eq {a b : String} (h : lines a.toList = lines b.toList) : a = b := by
  rw [← String.toList_inj, ← unlines_lines a.toList, h, unlines_lines]

/-- Parts that are joined by a newline are indented each on its own. -/
theorem indent_append_newline (width : Nat) (a b : String) :
    indent width (a ++ "\n" ++ b) = indent width a ++ "\n" ++ indent width b := by
  apply eq_of_lines_eq
  rw [lines_indent, lines_append_newline, lines_append_newline, lines_indent, lines_indent,
    List.map_append]

theorem indent_indent (m n : Nat) (text : String) :
    indent n (indent m text) = indent (m + n) text := by
  apply eq_of_lines_eq
  rw [lines_indent, lines_indent, lines_indent, List.map_map]
  apply List.map_congr_left
  intro line _
  rw [Function.comp_apply, indentLine_indentLine, Nat.add_comm]

theorem lineCount_indent (width : Nat) (text : String) :
    lineCount (indent width text) = lineCount text := by
  rw [lineCount_eq_length_lines, lineCount_eq_length_lines, lines_indent, List.length_map]

/-- Spaces in front of its lines make no text blank that was not. -/
theorem isBlank_indent (width : Nat) (text : String) :
    isBlank (indent width text).toList = isBlank text.toList := by
  rw [isBlank_eq_all_lines, isBlank_eq_all_lines text.toList, lines_indent, List.all_map]
  congr 1
  funext line
  exact isBlank_indentLine width line

theorem unindentLine_indentLine (width : Nat) (line : List Char) :
    unindentLine width (indentLine width line) = line := by
  cases h : isBlank line with
  | true => simp [indentLine, unindentLine, h]
  | false =>
    -- the padded line is not blank either, so the spaces are taken away
    have hpadded := isBlank_indentLine width line
    rw [unindentLine, hpadded, h, indentLine, h]
    simp

/-- Taking the spaces away gives back every text. -/
theorem unindent_indent (width : Nat) (text : String) : unindent width (indent width text) = text := by
  have hline : unindentLine width ∘ indentLine width = id := by
    funext line
    exact unindentLine_indentLine width line
  rw [unindent, lines_indent, List.map_map, hline, List.map_id, unlines_lines, String.ofList_toList]

theorem indent_inj {width : Nat} {a b : String} : indent width a = indent width b ↔ a = b :=
  Function.Injective.eq_iff (Function.LeftInverse.injective (unindent_indent width))

/-- Indentation works line by line, so it goes through parts that are joined by a newline; indenting
twice is indenting once by the sum; the number of lines stays, blank texts stay blank and no others
become so; and texts that are indented alike are the same. -/
theorem indent_laws (a b c : String) (m n : Nat) :
    lines (indent n c).toList = (lines c.toList).map (indentLine n) ∧
      indent n (a ++ "\n" ++ b) = indent n a ++ "\n" ++ indent n b ∧
      indent n (indent m c) = indent (m + n) c ∧
      lineCount (indent n c) = lineCount c ∧
      isBlank (indent n c).toList = isBlank c.toList ∧
      (indent n a = indent n b ↔ a = b) :=
  ⟨lines_indent n c, indent_append_newline n a b, indent_indent m n c, lineCount_indent n c,
    isBlank_indent n c, indent_inj⟩

/-- The blank line of a nested text stays as it is. -/
example : indent 2 (indent 4 "a\n \nb") = "      a\n \n      b" := by cbv

end TradeFlow
