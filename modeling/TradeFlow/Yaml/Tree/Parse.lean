import TradeFlow.Yaml.Token.Scan
import TradeFlow.Yaml.Tree.Visit

/-!
From tokens to trees.

Only the first document of a text is read, and of what follows it only one token is looked at. A
node has its name from its first token on, so an alias may stand for a node around it.
-/

namespace TradeFlow.Yaml

/-- What reading a document keeps track of. -/
structure Reading where
  tokens : List Token
  /-- The named nodes; those that are not complete yet are missing. -/
  named : Array Tree := #[]
  /-- Names and the numbers of their nodes, the latest first. -/
  names : List (List Char × Nat) := []
  /-- How many aliases there have been. -/
  aliases : Nat := 0
  /-- Tag handles and what they stand for. -/
  handles : List (List Char × List Char) := []

/-- A step of reading that may fail. -/
abbrev Read := StateT Reading Option

namespace Read

/-- The next token. It stays where it is. -/
def peek : Read Token := do
  match (← get).tokens with
  | [] => failure
  | t :: _ => return t

/-- Passes the next token. -/
def advance : Read Unit := modify fun r => { r with tokens := r.tokens.tail }

/-- Passes the next token if it is the given one, and fails if it is another. -/
def expect (t : Token) : Read Unit := do
  if (← peek) = t then advance else failure

/-- Passes the next token and gives the one behind it. -/
def advanceAndPeek : Read Token := do
  advance
  peek

end Read

open Read

/-- The properties of a node. -/
structure Properties where
  anchor : Option (List Char) := none
  tag : Option (List Char) := none

/-- The tag that a handle and a suffix stand for. -/
def expandTag (handle suffix : List Char) : Read (List Char) := do
  if handle.isEmpty then return suffix
  match (← get).handles.lookup handle with
  | some expansion => return expansion ++ suffix
  | none => failure

/-- An anchor and a tag in either order, each of which may be missing. -/
def properties : Read Properties := do
  match ← peek with
  | .anchor anchor =>
    match ← advanceAndPeek with
    | .tag handle suffix =>
      advance
      return { anchor := some anchor, tag := some (← expandTag handle suffix) }
    | _ => return { anchor := some anchor }
  | .tag handle suffix =>
    match ← advanceAndPeek with
    | .anchor anchor =>
      advance
      return { anchor := some anchor, tag := some (← expandTag handle suffix) }
    | _ => return { tag := some (← expandTag handle suffix) }
  | _ => return {}

/-- What the tags of the standard repository start with. -/
def standardTags : List Char := "tag:yaml.org,2002:".toList

/-- The tag of a node in its short form. An exclamation mark alone is no tag. -/
def shortTag? (tag : Option (List Char)) : Option String :=
  match tag with
  | none => none
  | some tag =>
    if tag.isEmpty || tag = ['!'] then none
    else if standardTags.isPrefixOf tag then
      some (String.ofList ('!' :: '!' :: tag.drop standardTags.length))
    else some (String.ofList tag)

/-- A scalar by its style, its tag and its text. -/
def scalarTree (style : ScalarStyle) (tag : Option (List Char)) (text : List Char) : Tree :=
  let byStyle :=
    if style = .plain then (if text = ['<', '<'] then some Tree.mergeTag else none)
    else some "!!str"
  .scalar ((shortTag? tag).or byStyle) (String.ofList text)

/-- Gives a node its name, reads it and keeps it. -/
def named (anchor : Option (List Char)) (read : Read Tree) : Read Tree := do
  match anchor with
  | none => read
  | some name =>
    let number := (← get).named.size
    modify fun r =>
      { r with named := r.named.push Tree.missing, names := (name, number) :: r.names }
    let n ← read
    modify fun r => { r with named := r.named.setIfInBounds number n }
    return n

/-- An alias for the latest node with a name. -/
def aliasOf (name : List Char) : Read Tree := do
  let r ← get
  match r.names.lookup name with
  | none => failure
  | some target =>
    set { r with aliases := r.aliases + 1 }
    return .alias r.aliases (String.ofList name) target

mutual

/-- A node. Blocks are read only where they are allowed, and so are entries that stand where the
keys around them stand. The first argument bounds the depth. -/
def readTree : Nat → (block indentless : Bool) → Read Tree
  | 0, _, _ => failure
  | depth + 1, block, indentless => do
    match ← peek with
    | .alias name =>
      advance
      aliasOf name
    | _ =>
      let p ← properties
      let tag := shortTag? p.tag
      match ← peek with
      | .scalar style text =>
        advance
        named p.anchor (pure (scalarTree style p.tag text))
      | .flowSequenceStart =>
        advance
        named p.anchor (.sequence tag <$> flowItems depth true)
      | .flowMappingStart =>
        advance
        named p.anchor (.mapping tag <$> flowPairs depth true)
      | t =>
        if t = .blockEntry && indentless then
          named p.anchor (.sequence tag <$> indentlessItems depth)
        else if t = .blockSequenceStart && block then
          advance
          named p.anchor (.sequence tag <$> blockItems depth)
        else if t = .blockMappingStart && block then
          advance
          named p.anchor (.mapping tag <$> blockPairs depth)
        else if p.anchor.isSome || p.tag.any (!·.isEmpty) then
          named p.anchor (pure (scalarTree .plain p.tag []))
        else failure

/-- A node, or nothing in front of one of the given tokens. -/
def readUnless (stops : List Token) : Nat → (block indentless : Bool) → Read Tree
  | 0, _, _ => failure
  | depth + 1, block, indentless => do
    if stops.contains (← peek) then return Tree.missing
    else readTree depth block indentless

/-- The entries of a block sequence. -/
def blockItems : Nat → Read (List Tree)
  | 0 => failure
  | depth + 1 => do
    match ← peek with
    | .blockEntry =>
      advance
      let item ← readUnless [.blockEntry, .blockEnd] depth true false
      return item :: (← blockItems depth)
    | .blockEnd =>
      advance
      return []
    | _ => failure

/-- The entries of a sequence that stands where the keys around it stand. -/
def indentlessItems : Nat → Read (List Tree)
  | 0 => failure
  | depth + 1 => do
    match ← peek with
    | .blockEntry =>
      advance
      let item ← readUnless [.blockEntry, .key, .value, .blockEnd] depth true false
      return item :: (← indentlessItems depth)
    | _ => return []

/-- The pairs of a block mapping. -/
def blockPairs : Nat → Read (List (Tree × Tree))
  | 0 => failure
  | depth + 1 => do
    match ← peek with
    | .key =>
      advance
      let key ← readUnless [.key, .value, .blockEnd] depth true true
      let value ← blockValue depth
      return (key, value) :: (← blockPairs depth)
    | .blockEnd =>
      advance
      return []
    | _ => failure

/-- The value behind a key of a block mapping. -/
def blockValue : Nat → Read Tree
  | 0 => failure
  | depth + 1 => do
    match ← peek with
    | .value =>
      advance
      readUnless [.key, .value, .blockEnd] depth true true
    | _ => return Tree.missing

/-- The entries of a flow sequence behind its first bracket or behind an entry. -/
def flowItems : Nat → (first : Bool) → Read (List Tree)
  | 0, _ => failure
  | depth + 1, first => do
    match ← peek with
    | .flowSequenceEnd =>
      advance
      return []
    | t =>
      if !first then
        if t = .flowEntry then advance else failure
      match ← peek with
      | .key =>
        advance
        let pair ← singlePair depth
        return .mapping none [pair] :: (← flowItems depth false)
      | .flowSequenceEnd =>
        advance
        return []
      | _ =>
        let item ← readTree depth false false
        return item :: (← flowItems depth false)

/-- A pair that is an entry of a flow sequence. A key that is missing takes the next token with
it. -/
def singlePair : Nat → Read (Tree × Tree)
  | 0 => failure
  | depth + 1 => do
    let key ←
      if [Token.value, .flowEntry, .flowSequenceEnd].contains (← peek) then do
        advance
        pure Tree.missing
      else readTree depth false false
    match ← peek with
    | .value =>
      advance
      let value ← readUnless [.flowEntry, .flowSequenceEnd] depth false false
      return (key, value)
    | _ => return (key, Tree.missing)

/-- The pairs of a flow mapping behind its first brace or behind a pair. -/
def flowPairs : Nat → (first : Bool) → Read (List (Tree × Tree))
  | 0, _ => failure
  | depth + 1, first => do
    match ← peek with
    | .flowMappingEnd =>
      advance
      return []
    | t =>
      if !first then
        if t = .flowEntry then advance else failure
      match ← peek with
      | .key =>
        advance
        let key ← readUnless [.value, .flowEntry, .flowMappingEnd] depth false false
        let value ← flowValue depth
        return (key, value) :: (← flowPairs depth false)
      | .flowMappingEnd =>
        advance
        return []
      | _ =>
        let key ← readTree depth false false
        return (key, Tree.missing) :: (← flowPairs depth false)

/-- The value behind a key of a flow mapping. -/
def flowValue : Nat → Read Tree
  | 0 => failure
  | depth + 1 => do
    match ← peek with
    | .value =>
      advance
      readUnless [.flowEntry, .flowMappingEnd] depth false false
    | _ => return Tree.missing

end

/-- The handles that every document knows. -/
def standardHandles : List (List Char × List Char) :=
  [(['!'], ['!']), (['!', '!'], standardTags)]

/-- The directives of a document. Only one version may be named, and it is 1.1; no handle may be
introduced twice. The first argument bounds their number. -/
def directives : Nat → (versioned : Bool) → Read Unit
  | 0, _ => failure
  | fuel + 1, versioned => do
    match ← peek with
    | .version major minor =>
      if versioned || major ≠ 1 || minor ≠ 1 then failure
      advance
      directives fuel true
    | .handle name expansion =>
      if ((← get).handles.lookup name).isSome then failure
      modify fun r => { r with handles := r.handles ++ [(name, expansion)] }
      advance
      directives fuel versioned
    | _ => modify fun r => { r with handles := r.handles ++ standardHandles }

/-- The root of the first document, if the text has one. The token behind the root must be there,
whatever it is. -/
def readRoot (depth : Nat) : Read (Option Tree) := do
  expect .streamStart
  match ← peek with
  | .streamEnd => return none
  | first =>
    directives depth false
    let isDirective := fun (t : Token) =>
      match t with
      | .version _ _ => true
      | .handle _ _ => true
      | _ => false
    if isDirective first || first = .documentStart then
      expect .documentStart
      let t ← peek
      let root ←
        if isDirective t || [Token.documentStart, .documentEnd, .streamEnd].contains t then
          pure Tree.missing
        else readTree depth true false
      let _ ← peek
      return some root
    else
      let root ← readTree depth true false
      let _ ← peek
      return some root

/-- The first document of a text and a bound for the depth of visits to it, on the way of which no
alias is passed twice; a text without a document has none. Text that is not well formed gives nothing
at all. -/
def Outline.ofText? (text : String) : Option (Option (Outline × Nat)) := do
  let tokens := tokens text
  let depth := 4 * tokens.length + 4
  let (root, r) ← (readRoot depth).run { tokens }
  return root.map fun root => ({ root, named := r.named }, depth * (r.aliases + 1))

/-- What a text stands for; a text without a document has a result of its own. -/
def Outline.readText {α : Type} (empty : Except Fault α) (read : Outline → Nat → Tree → Visit α)
    (text : String) : Except Fault α :=
  match Outline.ofText? text with
  | none => .error .refused
  | some none => empty
  | some (some (o, depth)) => Visit.ofRoot o (read o depth)

/-- The entries of a whole text; a text without a document, or whose document stands for nothing, has
none. -/
def entriesOfText (text : String) : Except Fault Entries :=
  Outline.readText (.ok []) (fun o depth n => return (← Visit.entries? o depth n).getD []) text

end TradeFlow.Yaml
