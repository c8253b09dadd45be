import TradeFlow.Program.Expression
import TradeFlow.Text.Lines

/-!
Statements of strategy programs and their layout.

A block is a chain of statements. A loop owns the block of its body; a branch owns two blocks and
ends its chain. Statements of a chain are separated by one blank line, and an owned block stands
between the braces of its owner, indented by two spaces. No statement is blank, so a block has
statements iff its text is more than white space (`Block.isBlank_text_iff`), and what depends on the
one may ask for the other (`Block.text_branch`, `Graph.lowerFrom_eq`).
-/

namespace TradeFlow

/-- A field of the object that a call passes. -/
structure Field where
  name : String
  value : Argument
  comment : Option String := none
  deriving DecidableEq, Repr

def Field.text (f : Field) : String :=
  "  " ++ f.name ++ ": " ++ f.value.text ++ ","
    ++ (match f.comment with
      | some comment => " // " ++ comment
      | none => "")
    ++ "\n"

/-- A call of a capability, which may name its result and may be preceded by a note. -/
structure Call where
  result : Option Variable
  function : Capability
  fields : List Field
  note : Option String := none
  deriving DecidableEq, Repr

namespace Call

/-- The parenthesised arguments: nothing, or one object with a field a line. -/
def arguments (fields : List Field) : String :=
  if fields.isEmpty then "()" else "(\x7b\n" ++ String.join (fields.map Field.text) ++ "\x7d)"

def text (c : Call) : String :=
  (match c.note with
    | some note => "// " ++ note ++ "\n"
    | none => "")
    ++ (match c.result with
      | some v => "const " ++ v.name ++ " = "
      | none => "")
    ++ "await " ++ c.function.name ++ arguments c.fields ++ ";"

end Call

/-- A chain of statements. -/
inductive Block where
  | nil
  | call (c : Call) (rest : Block)
  /-- Runs the body for every item of an array; without an array there is nothing to run over. -/
  | loop (item : Variable) (array : Option Source) (body rest : Block)
  | branch (condition : Condition) (yes no : Block)
  deriving DecidableEq, Repr

/-- The text of a chain with the given statements. -/
def joinStatements (statements : List String) : String := "\n\n".intercalate statements

/-- A block between braces. -/
def braced (text : String) : String := "\x7b\n" ++ indent 2 text ++ "\n\x7d"

/-- A loop whose body has the given text. -/
def loopText (item : Variable) (array : Option Source) (body : String) : String :=
  "for (const " ++ item.name ++ " of "
    ++ (match array with
      | some source => source.text
      | none => "[]")
    ++ " ?? []) " ++ braced body

/-- A branch whose blocks have the given statements. The second block is left out when it has
none. -/
def branchText (condition : Condition) (yes no : List String) : String :=
  "if (" ++ condition.text ++ ") " ++ braced (joinStatements yes)
    ++ (if no.isEmpty then "" else " else " ++ braced (joinStatements no))

namespace Block

/-- The texts of the statements of a chain. -/
def statements : Block → List String
  | .nil => []
  | .call c rest => c.text :: rest.statements
  | .loop item array body rest =>
    loopText item array (joinStatements body.statements) :: rest.statements
  | .branch condition yes no => [branchText condition yes.statements no.statements]

def text (b : Block) : String := joinStatements b.statements

/-- The number of statements of the chain itself. -/
def length : Block → Nat
  | .nil => 0
  | .call _ rest => rest.length + 1
  | .loop _ _ _ rest => rest.length + 1
  | .branch _ _ _ => 1

/-- The number of statements at any depth. -/
def size : Block → Nat
  | .nil => 0
  | .call _ rest => rest.size + 1
  | .loop _ _ body rest => body.size + rest.size + 1
  | .branch _ yes no => yes.size + no.size + 1

end Block

end TradeFlow
