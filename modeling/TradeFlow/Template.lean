import TradeFlow.Value

/-!
Templates with placeholders.

A placeholder is a dollar sign and a name in braces; a name starts with a letter or an underscore
and goes on with letters, digits and underscores, all of ASCII. Expansion fills the placeholders of
the template once: what is filled in is never looked at again, and everything that is no
placeholder stays as it is. Placeholders without a value stay as well and are reported together.
-/

namespace TradeFlow.Template

def isNameStart (c : Char) : Bool := c.isAlpha || c == '_'

def isNameChar (c : Char) : Bool := c.isAlphanum || c == '_'

/-- A part of a template. -/
inductive Piece where
  | text (c : Char)
  | hole (name : List Char)
  deriving DecidableEq, Repr

/-- Reads a name and the brace that closes it, and gives the name and what follows. -/
def name? : List Char → Option (List Char × List Char)
  | [] => none
  | c :: rest =>
    if isNameStart c then
      match rest.dropWhile isNameChar with
      | '\x7d' :: after => some (c :: rest.takeWhile isNameChar, after)
      | _ => none
    else none

theorem name?_length {text name after : List Char} (h : name? text = some (name, after)) :
    after.length < text.length := by
  match text with
  | [] => simp [name?] at h
  | c :: rest =>
    simp only [name?] at h
    split at h
    · split at h
      · next heq =>
        have hle := List.IsSuffix.length_le (List.dropWhile_suffix isNameChar (l := rest))
        rw [heq] at hle
        simp only [Option.some.injEq, Prod.mk.injEq] at h
        obtain ⟨-, rfl⟩ := h
        simp only [List.length_cons] at hle ⊢
        omega
      · simp at h
    · simp at h

/-- The pieces of a template from left to right. -/
def pieces : List Char → List Piece
  | [] => []
  | '$' :: '\x7b' :: rest =>
    match _h : name? rest with
    | some (name, after) => .hole name :: pieces after
    | none => .text '$' :: pieces ('\x7b' :: rest)
  | c :: rest => .text c :: pieces rest
termination_by text => text.length
decreasing_by
  · have := name?_length (by assumption); simp; omega
  · simp
  · simp

/-- The text of a hole that stays open. -/
def holeText (name : List Char) : List Char := '$' :: '\x7b' :: name ++ ['\x7d']

/-- A piece with its value filled in. -/
def fill (values : String → Option String) : Piece → List Char
  | .text c => [c]
  | .hole name =>
    match values (String.ofList name) with
    | some value => value.toList
    | none => holeText name

/-- The name of a hole without a value. -/
def missing? (values : String → Option String) : Piece → Option String
  | .text _ => none
  | .hole name =>
    match values (String.ofList name) with
    | some _ => none
    | none => some (String.ofList name)

/-- The expanded template and the names that have no value, in order of appearance. -/
def expand (template : String) (values : String → Option String) : String × List String :=
  let ps := pieces template.toList
  (String.ofList (ps.flatMap (fill values)), ps.filterMap (missing? values))

/-- What an expansion says about names without a value. -/
def undefinedMessage : List String → String
  | [name] => "undefined variable: " ++ name
  | names => "undefined variables: " ++ ", ".intercalate names

end TradeFlow.Template
