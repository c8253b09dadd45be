import TradeFlow.Yaml.Char

/-!
Tokens of YAML texts.
-/

namespace TradeFlow.Yaml

/-- How a scalar is written. -/
inductive ScalarStyle where
  | plain
  | quoted
  | block
  deriving DecidableEq, Repr

/-- A token. Indentation has been turned into starts and ends of blocks. -/
inductive Token where
  | streamStart
  | streamEnd
  | version (major minor : Nat)
  | handle (name : List Char) (expansion : List Char)
  | documentStart
  | documentEnd
  | blockSequenceStart
  | blockMappingStart
  | blockEnd
  | flowSequenceStart
  | flowSequenceEnd
  | flowMappingStart
  | flowMappingEnd
  | blockEntry
  | flowEntry
  | key
  | value
  | alias (name : List Char)
  | anchor (name : List Char)
  | tag (handle : List Char) (suffix : List Char)
  | scalar (style : ScalarStyle) (text : List Char)
  deriving DecidableEq, Repr

end TradeFlow.Yaml
