import TradeFlow.Program.Block
import TradeFlow.Proofs.Text.Lines

/-!
Whether a block has statements.

A program needs a statement, and a branch shows its second block only if that has one. Both can be
asked of a text as well, since whatever settings a statement shows, it is never blank. What is proved:

1. `Block.length_statements`: the length of a block counts its statements.
2. `Block.not_blank_of_mem`: no statement of a block is blank.
3. `Block.isBlank_text_iff` and `Block.isBlank_text_iff_length`: the text of a block is blank iff the
   block has no statements, that is, iff its length is zero.
4. `Block.text_branch`: a branch from the texts of its blocks, the second one shown unless it is blank.
-/

namespace TradeFlow

/-! ## Statements -/

theorem Call.not_blank (c : Call) : isBlank c.text.toList = false := by
  have hawait : isBlank "await ".toList = false := by decide
  simp only [Call.text, String.toList_append, isBlank_append, hawait, Bool.and_false,
    Bool.false_and]

theorem loopText_not_blank (item : Variable) (array : Option Source) (body : String) :
    isBlank (loopText item array body).toList = false := by
  have hfor : isBlank "for (const ".toList = false := by decide
  unfold loopText
  simp only [String.toList_append, isBlank_append, hfor, Bool.false_and]

theorem branchText_not_blank (condition : Condition) (yes no : List String) :
    isBlank (branchText condition yes no).toList = false := by
  have hif : isBlank "if (".toList = false := by decide
  unfold branchText
  simp only [String.toList_append, isBlank_append, hif, Bool.false_and]

/-- The blank lines between statements add nothing that can be seen. -/
theorem isBlank_joinStatements (statements : List String) :
    isBlank (joinStatements statements).toList = statements.all fun s => isBlank s.toList := by
  induction statements with
  | nil => rfl
  | cons s rest ih =>
    cases rest with
    | nil => simp [joinStatements]
    | cons t rest =>
      have hgap : isBlank "\n\n".toList = true := by decide
      rw [joinStatements, String.intercalate_cons_cons, String.toList_append, String.toList_append,
        isBlank_append, isBlank_append, hgap, Bool.and_true]
      exact congrArg (isBlank s.toList && ·) ih

/-! ## Blocks -/

namespace Block

theorem length_statements (b : Block) : b.statements.length = b.length := by
  induction b with
  | nil => rfl
  | call c rest ih => simp [statements, length, ih]
  | loop item array body rest _ ih => simp [statements, length, ih]
  | branch condition yes no => rfl

theorem statements_eq_nil_iff (b : Block) : b.statements = [] ↔ b.length = 0 := by
  rw [← b.length_statements, List.length_eq_zero_iff]

/-- No statement of a block is blank. -/
theorem not_blank_of_mem (b : Block) : ∀ s ∈ b.statements, isBlank s.toList = false := by
  induction b with
  | nil => exact List.forall_mem_nil _
  | call c rest ih => exact List.forall_mem_cons.2 ⟨c.not_blank, ih⟩
  | loop item array body rest _ ih =>
    exact List.forall_mem_cons.2 ⟨loopText_not_blank item array _, ih⟩
  | branch condition yes no =>
    exact List.forall_mem_singleton.2 (branchText_not_blank condition _ _)

/-- The text of a block is blank only if there is nothing in it. -/
theorem isBlank_text_iff (b : Block) : isBlank b.text.toList = true ↔ b.statements = [] := by
  rw [text, isBlank_joinStatements, List.all_eq_true]
  constructor
  · intro hblank
    rw [List.eq_nil_iff_forall_not_mem]
    intro s hs
    exact Bool.false_ne_true ((b.not_blank_of_mem s hs).symm.trans (hblank s hs))
  · intro hnil
    rw [hnil]
    exact List.forall_mem_nil _

theorem isBlank_text_iff_length (b : Block) : isBlank b.text.toList = true ↔ b.length = 0 :=
  b.isBlank_text_iff.trans b.statements_eq_nil_iff

/-- The text of a branch, from the texts of its blocks. -/
theorem text_branch (condition : Condition) (yes no : Block) :
    (branch condition yes no).text = "if (" ++ condition.text ++ ") " ++ braced yes.text
      ++ (if isBlank no.text.toList then "" else " else " ++ braced no.text) := by
  have hno : no.statements.isEmpty = isBlank no.text.toList := by
    rw [Bool.eq_iff_iff, List.isEmpty_iff, no.isBlank_text_iff]
  rw [text, joinStatements, statements, String.intercalate_singleton, branchText, hno]
  rfl

end Block

end TradeFlow
