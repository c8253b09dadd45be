import TradeFlow.Command.Logging

/-!
Command lines.

A command line is read level by level. The top level knows the commands; every command has a help
topic below it. At each level options and operands may be mixed, up to an operand that names
something one level down, which reads the rest. Options of a level may also be given further down.

A line asks for one of three things: for an explanation of the usage (which is also the answer to a
line that makes no sense), for a way of logging that does not exist, or for a command.
-/

namespace TradeFlow

/-- What the user asks for. -/
inductive Command where
  /-- Prints the program of a document, or writes it to a file. Strictly, a graph that cannot be
  compiled is an error. -/
  | generate (file : String) (out : Option String) (strict : Bool) (settings : Option String)
  /-- Reports every problem of a document. -/
  | check (file : String)
  /-- Lists the kinds of nodes. -/
  | nodes
  /-- Prints the schema of documents. -/
  | schema
  deriving DecidableEq, Repr

/-- What a command line amounts to. -/
inductive Invocation where
  /-- The usage is explained. It is a failure unless the explanation was asked for. -/
  | usage (failed : Bool)
  | refused (e : LoggingError)
  | command (logging : Logging) (c : Command)
  deriving DecidableEq, Repr

namespace CommandLine

/-- The options. -/
inductive Flag where
  | logLevel
  | logFormat
  | help
  | file
  | out
  | strict
  | settings
  deriving DecidableEq, Repr

namespace Flag

def ofName? : String → Option Flag
  | "log-level" => some logLevel
  | "log-format" => some logFormat
  | "help" => some help
  | "h" => some help
  | "file" => some file
  | "f" => some file
  | "out" => some out
  | "o" => some out
  | "strict" => some strict
  | "settings" => some settings
  | _ => none

/-- Whether an option is either on or off, and needs no value. -/
def isSwitch : Flag → Bool
  | help => true
  | strict => true
  | _ => false

end Flag

/-- The names of the commands. -/
inductive Verb where
  | generate
  | check
  | nodes
  | schema
  deriving DecidableEq, Repr

namespace Verb

def ofName? : String → Option Verb
  | "generate" => some generate
  | "check" => some check
  | "nodes" => some nodes
  | "schema" => some schema
  | _ => none

/-- The options of a command. -/
def flags : Verb → List Flag
  | generate => [.file, .out, .strict, .settings]
  | check => [.file]
  | nodes => []
  | schema => []

/-- Whether a command works on a document. -/
def needsFile (v : Verb) : Bool := v.flags.contains .file

end Verb

/-- The levels of a command line. -/
inductive Level where
  | top
  | verb (v : Verb)
  | topTopic
  | verbTopic (v : Verb)
  deriving DecidableEq, Repr

namespace Level

/-- How many levels there can still be below. -/
def depth : Level → Nat
  | top => 2
  | verb _ => 1
  | topTopic => 0
  | verbTopic _ => 0

def isHelpName (name : String) : Bool := name = "help" || name = "h"

/-- The level that an operand leads to. -/
def below? (l : Level) (name : String) : Option Level :=
  match l with
  | top => if isHelpName name then some topTopic else (Verb.ofName? name).map verb
  | verb v => if isHelpName name then some (verbTopic v) else none
  | topTopic => none
  | verbTopic _ => none

theorem depth_below {l m : Level} {name : String} (h : l.below? name = some m) :
    m.depth < l.depth := by
  cases l with
  | top =>
    simp only [below?] at h
    split at h
    · cases h; decide
    · obtain ⟨v, -, rfl⟩ := Option.map_eq_some_iff.1 h
      exact Nat.lt_succ_self 1
  | verb v =>
    simp only [below?] at h
    split at h
    · cases h; exact Nat.zero_lt_one
    · cases h
  | topTopic => cases h
  | verbTopic v => cases h

/-- The command at a level. -/
def verb? : Level → Option Verb
  | verb v => some v
  | verbTopic v => some v
  | _ => none

/-- The level that a help topic explains; any other level explains itself. -/
def subject : Level → Level
  | topTopic => top
  | verbTopic v => verb v
  | l => l

/-- Whether an option may stand at a level. -/
def accepts (l : Level) : Flag → Bool
  | .logLevel => true
  | .logFormat => true
  | .help => true
  | flag => l.verb?.any (·.flags.contains flag)

/-- Whether an explanation is asked of something that does not exist. -/
def asksUnknown (l : Level) (operands : List String) : Bool :=
  match operands.head? with
  | some name => name ≠ "" && (l.subject.below? name).isNone
  | none => false

end Level

/-- The values of the options. -/
structure Options where
  logLevel : String := "warn"
  logFormat : String := "text"
  help : Bool := false
  file : Option String := none
  out : String := ""
  strict : Bool := false
  settings : String := ""
  deriving DecidableEq, Repr

/-- A truth value in words or digits. -/
def truth? (word : String) : Option Bool :=
  if word ∈ ["1", "t", "T", "true", "TRUE", "True"] then some true
  else if word ∈ ["0", "f", "F", "false", "FALSE", "False"] then some false
  else none

namespace Options

/-- Sets an option to a value. A later value replaces an earlier one. -/
def set? (o : Options) (flag : Flag) (value : String) : Option Options :=
  match flag with
  | .logLevel => some { o with logLevel := value }
  | .logFormat => some { o with logFormat := value }
  | .file => some { o with file := some value }
  | .out => some { o with out := value }
  | .settings => some { o with settings := value }
  | .help => (truth? value).map fun b => { o with help := b }
  | .strict => (truth? value).map fun b => { o with strict := b }

/-- A path; the empty one is none. -/
def path? (text : String) : Option String := if text = "" then none else some text

/-- The command that a verb and the options stand for. -/
def command (o : Options) : Verb → Command
  | .generate => .generate (o.file.getD "") (path? o.out) o.strict (path? o.settings)
  | .check => .check (o.file.getD "")
  | .nodes => .nodes
  | .schema => .schema

end Options

/-- An argument without the white space around it. -/
def trim (arg : String) : List Char :=
  ((arg.toList.dropWhile isBlankChar).reverse.dropWhile isBlankChar).reverse

/-- What an argument is. -/
inductive Argument where
  /-- No option and no operand. -/
  | blank
  /-- All that follows are operands. -/
  | dashes
  /-- An operand that ends the options with nothing after it. -/
  | dash
  | operand (name : String)
  | flag (name : String) (value : String)
  deriving DecidableEq, Repr

namespace Argument

/-- The name and the value of an option, which an equals sign divides. -/
def ofFlag (text : List Char) : Argument :=
  .flag (String.ofList (text.takeWhile (· != '=')))
    (String.ofList ((text.dropWhile (· != '=')).drop 1))

def ofText (arg : String) : Argument :=
  match trim arg with
  | [] => .blank
  | ['-'] => .dash
  | ['-', '-'] => .dashes
  | '-' :: '-' :: text => ofFlag text
  | '-' :: text => ofFlag text
  | text => .operand (String.ofList text)

end Argument

namespace Level

/-- Reads the options of a level, and gives them with the operands. -/
def scan (l : Level) (o : Options) : List String → Option (Options × List String)
  | [] => some (o, [])
  | arg :: rest =>
    match Argument.ofText arg with
    | .blank => some (o, [])
    | .dashes => some (o, rest)
    | .dash => some (o, ["-"])
    | .operand name =>
      if (l.below? name).isSome then some (o, arg :: rest)
      else (l.scan o rest).map fun (o, operands) => (o, name :: operands)
    | .flag name value =>
      match (Flag.ofName? name).filter l.accepts with
      | none => none
      | some flag =>
        if flag.isSwitch then
          match o.set? flag (if value = "" then "true" else value) with
          | some o => l.scan o rest
          | none => none
        else if value = "" then
          match rest with
          | [] => none
          | value :: rest =>
            match o.set? flag value with
            | some o => l.scan o rest
            | none => none
        else
          match o.set? flag value with
          | some o => l.scan o rest
          | none => none

/-- What is done at the last level of a line. How to log is settled before anything else. -/
def conclude (l : Level) (o : Options) (operands : List String) : Invocation :=
  match Logging.read o.logLevel o.logFormat with
  | .error e => .refused e
  | .ok logging =>
    if l.verb?.any Verb.needsFile && o.file.isNone then .usage true
    else
      match l with
      | verb v => .command logging (o.command v)
      | _ => .usage (l.asksUnknown operands)

/-- Reads arguments from a level on. -/
def read (l : Level) (o : Options) (args : List String) : Invocation :=
  match l.scan o args with
  | none => .usage true
  | some (o, operands) =>
    if o.help then .usage (l.asksUnknown operands)
    else
      match operands with
      | [] => l.conclude o []
      | name :: rest =>
        match _h : l.below? name with
        | some m => m.read o rest
        | none => l.conclude o (name :: rest)
termination_by l.depth
decreasing_by exact depth_below _h

end Level

end CommandLine

/-- Reads a command line. -/
def Invocation.ofArguments (args : List String) : Invocation := CommandLine.Level.top.read {} args

end TradeFlow
