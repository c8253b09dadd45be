import TradeFlow.Program.Block

/-!
Strategy programs.

A program wraps the statements of a strategy into the call that runs them on a schedule. It names
the capabilities that the statements use and shows the settings of the strategy.
-/

namespace TradeFlow

/-- A compiled strategy. -/
structure Program where
  /-- The node whose settings the program shows. -/
  configNode : String
  settings : StrategyConfig
  capabilities : List Capability
  body : Block
  deriving DecidableEq, Repr

namespace Program

/-- The literal of a setting of the strategy. -/
def strategyLiteral (key value : String) : TextLiteral := ⟨.strategy key, value⟩

/-- The literals of the tags. -/
def tagLiterals (tags : List String) : List TextLiteral :=
  tags.zipIdx.map fun (tag, i) => ⟨.tag i, tag⟩

/-- The line with the name, unless the strategy has none. -/
def nameLine (settings : StrategyConfig) : String :=
  if settings.strategyName = "" then ""
  else "\n  name: " ++ (strategyLiteral "strategyName" settings.strategyName).text ++ ","

/-- The line with the tags, unless the strategy has none. -/
def tagsLine (settings : StrategyConfig) : String :=
  if settings.tags.isEmpty then ""
  else "\n  tags: [" ++ ",".intercalate ((tagLiterals settings.tags).map TextLiteral.text) ++ "],"

/-- Everything up to the line that closes the function. -/
def opening (capabilities : List Capability) (body : String) : String :=
  "import \x7b ganaka \x7d from \"@ganaka/sdk\";\n\nawait ganaka(\x7b\n  fn: async (\x7b "
    ++ ", ".intercalate (capabilities.map Capability.name) ++ " \x7d) => \x7b\n"
    ++ indent 4 body ++ "\n  \x7d,\n"

/-- The schedule and the labels of the strategy, and the end of the program. -/
def closing (settings : StrategyConfig) : String :=
  "  startTime: " ++ (strategyLiteral "startTime" settings.startTime).text ++ ",\n"
    ++ "  endTime: " ++ (strategyLiteral "endTime" settings.endTime).text ++ ",\n"
    ++ "  intervalMinutes: " ++ intText settings.intervalMinutes ++ ","
    ++ nameLine settings ++ tagsLine settings ++ "\n\x7d);\n"

/-- The text of the program. -/
def source (p : Program) : String :=
  opening p.capabilities p.body.text ++ closing p.settings

/-- The number of statements at the top level. -/
def statements (p : Program) : Nat := p.body.length

/-- The number of nodes that became statements, at any depth. -/
def emitted (p : Program) : Nat := p.body.size

end Program

end TradeFlow
