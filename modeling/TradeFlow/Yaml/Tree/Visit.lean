import TradeFlow.Yaml.Tree.Basic
import TradeFlow.Yaml.Tree.Keyed

/-!
What the nodes of a document stand for.

Nodes are visited from the root on, and an alias sends the visit to the node that it stands for. A
node that is visited inside itself by the same alias is refused, and so is a document in which too
many of the visits go through aliases. A node that does not fit what is asked for is refused as well,
but the visit goes on behind it.

A mapping takes in its own pairs first, and then those of the mappings that it merges, as far as their
keys are not there yet. The keys that are there are kept in a list, in which every key must be
comparable: a list or a mapping among them ends the visit abruptly.
-/

namespace TradeFlow.Yaml

/-- Why a visit ends before its time. -/
inductive Fault where
  | refused
  /-- A key cannot be compared with others. -/
  | incomparable
  deriving DecidableEq, Repr

/-- What a visit keeps track of. -/
structure Tour where
  /-- How many nodes have been visited, and how many of them through aliases. -/
  visited : Nat := 0
  aliased : Nat := 0
  /-- The aliases on the way to the present node. -/
  aliases : List Nat := []
  /-- Whether a node has been refused. -/
  refused : Bool := false

/-- Whether too many visits go through aliases: 99 of 100 are allowed up to 400000 visits, one of ten
from 4000000 on, and a share between them in between. -/
def Tour.isExcessive (t : Tour) : Bool :=
  let tolerated :=
    if t.visited ≤ 400000 then t.aliased * 100 ≤ 99 * t.visited
    else if 4000000 ≤ t.visited then t.aliased * 10 ≤ t.visited
    else t.aliased * 360000000 ≤ t.visited * (356400000 - 89 * (t.visited - 400000))
  100 < t.aliased && 1000 < t.visited && !tolerated

/-- A visit to a part of a document. -/
abbrev Visit := StateT Tour (Except Fault)

namespace Visit

/-- Counts a visit. -/
def enter : Visit Unit := do
  modify fun t =>
    { t with
      visited := t.visited + 1
      aliased := if t.aliases.isEmpty then t.aliased else t.aliased + 1 }
  if (← get).isExcessive then throw .refused

/-- Refuses a node and goes on. -/
def refuse : Visit Unit := modify fun t => { t with refused := true }

/-- Visits a node, or the one that an alias stands for. -/
def node {α : Type} (o : Outline) (n : Tree) (read : Tree → Visit α) : Visit α := do
  enter
  match n with
  | .alias number _ _ =>
    if (← get).aliases.contains number then throw .refused
    modify fun t => { t with aliases := number :: t.aliases }
    enter
    let result ← read (o.resolve n)
    modify fun t => { t with aliases := t.aliases.tail }
    return result
  | n => read n

/-- What a scalar stands for, which it must. -/
def scalar (tag : Option String) (text : String) : Visit Value :=
  match Tree.scalarValue? tag text with
  | some value => pure value
  | none => throw .refused

/-- A text, as any scalar is written; nothing stands for none. -/
def text? (o : Outline) (n : Tree) : Visit (Option String) :=
  node o n fun n => do
    match n with
    | .scalar tag text =>
      match ← scalar tag text with
      | .null => return none
      | .string value => return some (if tag = some "!!binary" then value else text)
      | _ => return some text
    | _ =>
      refuse
      return none

/-! ## Mappings -/

/-- How the pairs of a mapping are taken in. -/
structure Intake (κ σ : Type) where
  /-- What a key stands for; a pair without a key is passed over. -/
  key? : Tree → Visit (Option κ)
  /-- The key as a value. -/
  keyValue : κ → Value
  /-- Takes in the node under a key. -/
  take : κ → Tree → σ → Visit σ

/-- Adds a key to a list of keys, and says whether it was there. -/
def addKey (key : Value) (keys : List Value) : Visit (Bool × List Value) :=
  if !isComparable key then throw .incomparable
  else if keys.any (equalKeys · key) then pure (true, keys)
  else pure (false, key :: keys)

/-- Takes in the pairs of a mapping that merge nothing. In a mapping that is merged, pairs are passed
over whose keys are there already. -/
def takeOwn {κ σ : Type} (intake : Intake κ σ) :
    List (Tree × Tree) → Option (List Value) → σ → Visit (Option (List Value) × σ)
  | [], keys, state => pure (keys, state)
  | (key, n) :: rest, keys, state => do
    if key.isMerge then takeOwn intake rest keys state
    else
      match ← intake.key? key with
      | none => takeOwn intake rest keys state
      | some key =>
        match keys with
        | none => takeOwn intake rest none (← intake.take key n state)
        | some keys =>
          let (known, keys) ← addKey (intake.keyValue key) keys
          if known then takeOwn intake rest (some keys) state
          else takeOwn intake rest (some keys) (← intake.take key n state)

/-- The keys of a mapping, those of merges among them. -/
def ownKeys (value? : Tree → Visit (Option Value)) :
    List (Tree × Tree) → List Value → Visit (List Value)
  | [], keys => pure keys
  | (key, _) :: rest, keys => do
    match ← value? key with
    | none => ownKeys value? rest keys
    | some key =>
      let (_, keys) ← addKey key keys
      ownKeys value? rest keys

/-- The nodes that a merge names. -/
def mergedNodes : Tree → List Tree
  | .sequence _ items => items
  | n => [n]

/-- Takes in a mapping; one with two keys that are written alike is refused and has no result. The
last merge of the mapping is carried out. The first argument bounds how many mappings are merged
inside each other, and the keys are those that are there already, if the mapping itself is merged. -/
def takeMapping? {κ σ : Type} (o : Outline) (value? : Tree → Visit (Option Value))
    (intake : Intake κ σ) :
    Nat → List (Tree × Tree) → Option (List Value) → σ → Visit (Option (Option (List Value) × σ))
  | 0, _, _, _ => throw .refused
  | depth + 1, pairs, keys, state => do
    if Tree.hasDuplicates pairs then
      refuse
      return none
    else
      let (keys, state) ← takeOwn intake pairs keys state
      match (pairs.filter (·.1.isMerge)).getLast? with
      | none => return some (keys, state)
      | some (_, merged) =>
        let known ←
          match keys with
          | some keys => pure keys
          | none => ownKeys value? pairs []
        let (known, state) ← (mergedNodes merged).foldlM (fun (known, state) n => do
          if (o.resolve n).isMapping then
            node o n fun
              | .mapping _ pairs => do
                match ← takeMapping? o value? intake depth pairs (some known) state with
                | some (some known, state) => return (known, state)
                | _ => return (known, state)
              | _ => return (known, state)
          else throw .refused) (known, state)
        return some (keys.map fun _ => known, state)

/-- What a mapping adds to a state. -/
def mapping? {κ σ : Type} (o : Outline) (value? : Tree → Visit (Option Value))
    (intake : Intake κ σ) (depth : Nat) (pairs : List (Tree × Tree)) (state : σ) :
    Visit (Option σ) :=
  return (← takeMapping? o value? intake depth pairs none state).map (·.2)

/-! ## Loosely typed values -/

/-- Mappings with string keys. -/
def entriesIntake (o : Outline) (value? : Tree → Visit (Option Value)) : Intake String Entries where
  key? := text? o
  keyValue := .string
  take := fun key n entries => do
    match ← value? n with
    | some value => return entries.insert key value
    | none => return entries

/-- Mappings with keys of any type. -/
def keyedIntake (value? : Tree → Visit (Option Value)) : Intake Value (List (Value × Value)) where
  key? := value?
  keyValue := id
  take := fun key n entries => do
    if !isComparable key then throw .refused
    match ← value? n with
    | some value => return insertKeyed key value entries
    | none => return entries

/-- The loosely typed value of a node, unless it is refused. The first argument bounds the depth. -/
def value? (o : Outline) : Nat → Tree → Visit (Option Value)
  | 0, _ => throw .refused
  | depth + 1, n =>
    node o n fun
      | .scalar tag text => return some (← scalar tag text)
      | .sequence _ items => return some (.list ((← items.mapM (value? o depth)).filterMap id))
      | .mapping _ pairs => do
        let value? := value? o depth
        if o.hasStringKeys pairs then
          return (← mapping? o value? (entriesIntake o value?) depth pairs []).map .map
        else
          return (← mapping? o value? (keyedIntake value?) depth pairs []).map .keyed
      | .alias _ _ _ => throw .refused

/-- The entries of a node; none if it stands for nothing. -/
def entries? (o : Outline) (depth : Nat) (n : Tree) : Visit (Option Entries) :=
  node o n fun n => do
    match n with
    | .mapping _ pairs =>
      let value? := value? o depth
      mapping? o value? (entriesIntake o value?) depth pairs []
    | .scalar tag text =>
      if (← scalar tag text) != .null then refuse
      return none
    | _ =>
      refuse
      return none

/-- What a visit to the root of a document finds, unless something has been refused on the way. The
document counts as a visit of its own. -/
def ofRoot {α : Type} (o : Outline) (read : Tree → Visit α) : Except Fault α := do
  let visit : Visit α := do
    enter
    read o.root
  let (result, t) ← visit.run {}
  if t.refused then throw .refused else return result

end Visit

end TradeFlow.Yaml
