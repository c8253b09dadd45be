import TradeFlow.Yaml.Scalar

/-!
Trees of YAML documents.

Nodes may have names, and an alias stands for the node that had its name last when the alias was
read. That node may be one that holds the alias, so aliases refer to nodes by number: an outline of a
document lists its named nodes beside its root.
-/

namespace TradeFlow.Yaml

/-- A node of a document. A tag is short; it is missing where the form of the node decides. -/
inductive Tree where
  | scalar (tag : Option String) (text : String)
  | sequence (tag : Option String) (items : List Tree)
  | mapping (tag : Option String) (pairs : List (Tree × Tree))
  /-- Aliases are numbered, and each has the number of a named node. -/
  | alias (number : Nat) (name : String) (target : Nat)
  deriving Repr

instance : Inhabited Tree := ⟨.scalar none ""⟩

/-- A document. -/
structure Outline where
  root : Tree
  /-- The named nodes by number. -/
  named : Array Tree := #[]

namespace Tree

/-- A node that is not written out. -/
def missing : Tree := .scalar none ""

/-- The tag of a key that merges another mapping. -/
def mergeTag : String := "!!merge"

/-- What a scalar stands for. -/
def scalarValue? (tag : Option String) (text : String) : Option Value :=
  match tag with
  | none => some (plainValue text)
  | some tag => taggedValue? tag text

/-- The tag of a node that is no alias. -/
def tag : Tree → String
  | .scalar tag text => tag.getD (valueTag (plainValue text))
  | .sequence tag _ => tag.getD "!!seq"
  | .mapping tag _ => tag.getD "!!map"
  | .alias _ _ _ => ""

def isMapping : Tree → Bool
  | .mapping _ _ => true
  | _ => false

/-- Whether a node is the key of a merge. -/
def isMerge : Tree → Bool
  | .scalar tag text => text == "<<" && tag == some mergeTag
  | _ => false

/-- Whether two keys are written alike. -/
def sameKey : Tree → Tree → Bool
  | .scalar _ a, .scalar _ b => a == b
  | .sequence _ _, .sequence _ _ => true
  | .mapping _ _, .mapping _ _ => true
  | .alias _ a _, .alias _ b _ => a == b
  | _, _ => false

/-- Whether a mapping has two keys that are written alike. -/
def hasDuplicates : List (Tree × Tree) → Bool
  | [] => false
  | (key, _) :: rest => rest.any (fun p => sameKey key p.1) || hasDuplicates rest

end Tree

namespace Outline

/-- The node that an alias stands for, and any other node itself. -/
def resolve (o : Outline) : Tree → Tree
  | .alias _ _ target => o.named.getD target Tree.missing
  | n => n

/-- Whether all keys of a mapping are strings or merge other mappings. -/
def hasStringKeys (o : Outline) (pairs : List (Tree × Tree)) : Bool :=
  pairs.all fun p => ["!!str", Tree.mergeTag].contains (o.resolve p.1).tag

end Outline

end TradeFlow.Yaml
