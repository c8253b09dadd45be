import TradeFlow.Text.Lines

/-!
Lines of texts and of indented texts.

Splitting a text at its newlines and joining lines by newlines undo each other, and indentation works
on each line alone. What is proved:

1. `lines_append` and `lines_unlines`: how the lines of a text come from its parts.
2. `isBlank_eq_all_lines`: a text is blank when all of its lines are.
3. `lines_indentChars`: an indented text has the indented lines of the text.
4. `indentLine_indentLine`: indenting twice is indenting once by the sum.
-/

namespace TradeFlow

variable {line a b : List Char} {ls : List (List Char)}

/-! ## Lines -/

/-- A newline ends a line. -/
theorem lines_append (a b : List Char) : lines (a ++ '\n' :: b) = lines a ++ lines b :=
  List.splitOn_append_cons_self a b

theorem lines_append_newline (a b : String) :
    lines (a ++ "\n" ++ b).toList = lines a.toList ++ lines b.toList := by
  have htext : (a ++ "\n" ++ b).toList = a.toList ++ '\n' :: b.toList := by simp
  rw [htext, lines_append]

/-- What has no newline belongs to the line that it stands in front of. -/
theorem lines_append_of_not_mem (h : '\n' ∉ a) (b : List Char) :
    lines (a ++ b) = (lines b).modifyHead (a ++ ·) := by
  induction a with
  | nil => exact (congrFun List.modifyHead_id (lines b)).symm
  | cons c a ih =>
    rw [List.mem_cons, not_or] at h
    have hc : (c == '\n') = false := beq_eq_false_iff_ne.2 (Ne.symm h.1)
    have hcons : lines (c :: (a ++ b)) = (lines (a ++ b)).modifyHead (c :: ·) := by
      rw [lines, List.splitOn_cons_eq_if_modifyHead, hc]
      rfl
    rw [List.cons_append, hcons, ih h.2, List.modifyHead_modifyHead]
    rfl

theorem lines_ne_nil (text : List Char) : lines text ≠ [] :=
  List.splitOn_ne_nil '\n' text

theorem unlines_lines (text : List Char) : unlines (lines text) = text :=
  List.intercalate_splitOn '\n'

theorem lines_unlines (h : ∀ line ∈ ls, '\n' ∉ line) (hne : ls ≠ []) : lines (unlines ls) = ls :=
  List.splitOn_intercalate '\n' h hne

/-- A text has one line more than newlines. -/
theorem lineCount_eq_length_lines (text : String) :
    lineCount text = (lines text.toList).length := by
  rw [lineCount]
  induction text.toList with
  | nil => rfl
  | cons c text ih =>
    rw [lines, List.splitOn_cons_eq_if_modifyHead, List.count_cons]
    split <;> simp_all [lines]

/-- A line holds no newline. -/
theorem newline_not_mem_of_mem_lines {text : List Char} (h : line ∈ lines text) : '\n' ∉ line := by
  induction text generalizing line with
  | nil =>
    rw [lines, List.splitOn_nil, List.mem_singleton] at h
    simp [h]
  | cons c text ih =>
    rw [lines, List.splitOn_cons_eq_if_modifyHead] at h
    split at h
    · rcases List.mem_cons.1 h with rfl | h
      · simp
      · exact ih h
    · next hc =>
      -- the first line of the rest goes on with the character, which is no newline
      obtain ⟨first, others, hsplit⟩ := List.exists_cons_of_ne_nil (lines_ne_nil text)
      rw [lines] at hsplit
      rw [hsplit, List.modifyHead_cons] at h
      have hfirst : '\n' ∉ first := ih (by rw [lines, hsplit]; exact List.mem_cons_self)
      rcases List.mem_cons.1 h with rfl | h
      · rw [List.mem_cons, not_or]
        exact ⟨fun he => hc (by simp [← he]), hfirst⟩
      · exact ih (by rw [lines, hsplit]; exact List.mem_cons_of_mem first h)

/-- The first line ends at a newline if others follow. -/
theorem unlines_cons (hne : ls ≠ []) : unlines (line :: ls) = line ++ '\n' :: unlines ls := by
  obtain ⟨next, rest, rfl⟩ := List.exists_cons_of_ne_nil hne
  rw [unlines, unlines, List.intercalate_cons_cons, List.append_assoc]
  rfl

/-! ## Blank texts -/

theorem isBlank_append (a b : List Char) : isBlank (a ++ b) = (isBlank a && isBlank b) :=
  List.all_append

/-- The newlines between lines are white space themselves. -/
theorem isBlank_unlines (ls : List (List Char)) : isBlank (unlines ls) = ls.all isBlank := by
  induction ls with
  | nil => rfl
  | cons line rest ih =>
    cases rest with
    | nil => simp [unlines]
    | cons next rest =>
      have hnewline : isBlank ('\n' :: unlines (next :: rest)) = isBlank (unlines (next :: rest)) := rfl
      rw [unlines_cons (by simp), isBlank_append, hnewline, ih]
      rfl

/-- A text is blank when all of its lines are. -/
theorem isBlank_eq_all_lines (text : List Char) : isBlank text = (lines text).all isBlank := by
  rw [← isBlank_unlines, unlines_lines]

/-! ## Indentation -/

theorem isBlank_replicate (width : Nat) : isBlank (List.replicate width ' ') = true := by
  rw [isBlank, List.all_replicate]
  simp only [show isBlankChar ' ' = true from rfl, ite_self]

/-- Spaces in front make no line blank that was not. -/
theorem isBlank_indentLine (width : Nat) (line : List Char) :
    isBlank (indentLine width line) = isBlank line := by
  unfold indentLine
  split
  · rfl
  · rw [isBlank, List.all_append]
    have hspaces : (List.replicate width ' ').all isBlankChar = true := isBlank_replicate width
    rw [hspaces, Bool.true_and, isBlank]

theorem newline_not_mem_indentLine (width : Nat) (h : '\n' ∉ line) :
    '\n' ∉ indentLine width line := by
  unfold indentLine
  split
  · exact h
  · rw [List.mem_append, List.mem_replicate, not_or]
    exact ⟨by simp, h⟩

/-- Indenting twice is indenting once. -/
theorem indentLine_indentLine (m n : Nat) (line : List Char) :
    indentLine m (indentLine n line) = indentLine (m + n) line := by
  cases h : isBlank line with
  | true => simp [indentLine, h]
  | false =>
    have hn : isBlank (List.replicate n ' ' ++ line) = false := by
      have := isBlank_indentLine n line
      simpa [indentLine, h] using this
    simp [indentLine, h, hn, ← List.append_assoc, List.replicate_append_replicate]

/-- An indented text has the lines of the text, each of them indented. -/
theorem lines_indentChars (width : Nat) (text : List Char) :
    lines (indentChars width text) = (lines text).map (indentLine width) := by
  refine lines_unlines ?_ (by simp [lines_ne_nil])
  intro line hline
  obtain ⟨line, hmem, rfl⟩ := List.mem_map.1 hline
  exact newline_not_mem_indentLine width (newline_not_mem_of_mem_lines hmem)

end TradeFlow
