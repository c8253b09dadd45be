import TradeFlow.Command.Basic
import TradeFlow.Document.Schema
import TradeFlow.Document.Text

/-!
What commands do.

A command is a function of the files it may look into: it says what it prints, what it logs, which
file it writes and how it fails, and leaves it to its caller to do so. A command that fails writes
no file, and of the commands only the check of a document prints anything before it fails.
-/

namespace TradeFlow

/-- Why a file cannot be read or written. -/
inductive FileError where
  | missing
  | isDirectory
  | notDirectory
  | denied
  /-- A path, or an element of one, has too many bytes. -/
  | tooLong
  /-- A path that no file can have. -/
  | malformed
  | other (reason : String)
  deriving DecidableEq, Repr

def FileError.reason : FileError → String
  | .missing => "no such file or directory"
  | .isDirectory => "is a directory"
  | .notDirectory => "not a directory"
  | .denied => "permission denied"
  | .tooLong => "file name too long"
  | .malformed => "invalid argument"
  | .other reason => reason

/-- The failure to open a file. -/
def FileError.message (e : FileError) (path : String) : String := "open " ++ path ++ ": " ++ e.reason

/-- The failure to read a file. A directory can be opened, but it cannot be read. -/
def FileError.readMessage (e : FileError) (path : String) : String :=
  if e = .isDirectory then "read " ++ path ++ ": " ++ e.reason else e.message path

/-- The files around a command. -/
structure Workspace where
  read : String → Except FileError String
  /-- What stands in the way of writing a file. -/
  obstacle? : String → Option FileError

/-- Why a command fails. -/
inductive CommandError where
  | documentFormat (extension : String)
  | documentFile (path : String) (e : FileError)
  | document (path : String) (e : DocumentError)
  | build (errors : List BuildError)
  | settingsFormat (extension : String)
  | settingsFile (path : String) (e : FileError)
  | settingsText (e : DocumentError)
  | settings (e : SettingsError)
  | compile (e : CompileError)
  | output (path : String) (e : FileError)
  /-- A check found problems, and has printed them. -/
  | problems
  /-- Reading or compiling stopped abruptly. -/
  | aborted
  deriving Repr

namespace CommandError

def message : CommandError → String
  | .documentFormat extension => (DocumentError.unsupported extension).message
  | .documentFile path e => "read document: " ++ e.readMessage path
  | .document path e => path ++ ": " ++ e.message
  | .build errors => "\n".intercalate (errors.map BuildError.message)
  | .settingsFormat extension => "unsupported config file extension: " ++ quoted extension
  | .settingsFile path e => "read config file: " ++ e.readMessage path
  | .settingsText e => e.message
  | .settings e => e.message
  | .compile e => e.message
  | .output path e => "write program: " ++ e.message path
  | .problems => "graph has problems"
  | .aborted => "aborted"

end CommandError

/-- What a command does. -/
structure Outcome where
  stdout : String := ""
  records : List LogRecord := []
  written : Option (String × String) := none
  error : Option CommandError := none

/-- The failure to read a text. -/
def CommandError.ofDocumentError (e : DocumentError) (otherwise : DocumentError → CommandError) :
    CommandError :=
  match e with
  | .aborted _ => .aborted
  | e => otherwise e

namespace Command

/-- The files that a command reads. -/
def inputs : Command → List String
  | .generate file _ _ settings => file :: settings.toList
  | .check file => [file]
  | .nodes => []
  | .schema => []

/-- Reads a document. Its format is known by its extension before it is opened. -/
def loadDocument (w : Workspace) (path : String) : Except CommandError Document :=
  match DocumentFormat.ofPath? path with
  | none => .error (.documentFormat (DocumentFormat.extension path))
  | some format =>
    match w.read path with
    | .error e => .error (.documentFile path e)
    | .ok text =>
      (Document.decode format.name text).mapError (CommandError.ofDocumentError · (.document path))

/-- Reads settings. -/
def loadSettings (w : Workspace) (path : String) : Except CommandError Entries :=
  match DocumentFormat.ofPath? path with
  | none => .error (.settingsFormat (DocumentFormat.extension path))
  | some format =>
    match w.read path with
    | .error e => .error (.settingsFile path e)
    | .ok text => (Entries.decode format text).mapError (CommandError.ofDocumentError · .settingsText)

/-- Reads a document and builds its graph, and gives what was refused on the way. -/
def loadGraph (w : Workspace) (supply : IdSupply) (path : String) :
    Except CommandError (Graph × List BuildError) := do
  let d ← loadDocument w path
  let (e, errors) ← (d.build supply).mapError (.document path)
  return (e.graph, errors)

/-- The graph to compile: nothing may have been refused, and settings replace those of the root. -/
def prepare (w : Workspace) (supply : IdSupply) (file : String) (settings : Option String) :
    Except CommandError Graph := do
  let (g, errors) ← loadGraph w supply file
  if !errors.isEmpty then throw (.build errors)
  match settings with
  | none => return g
  | some path => (g.applySettings (← loadSettings w path)).mapError .settings

/-- The record of a program in a file. -/
def writtenRecord (path : String) : LogRecord := ⟨.info, "program written", [("path", .text path)]⟩

/-- Prints a program or writes it to a file. -/
def deliver (w : Workspace) (out : Option String) (records : List LogRecord) (text : String) :
    Outcome :=
  match out with
  | none => { stdout := text, records }
  | some path =>
    match w.obstacle? path with
    | some e => { records, error := some (.output path e) }
    | none => { records := records ++ [writtenRecord path], written := some (path, text) }

def runGenerate (w : Workspace) (supply : IdSupply) (compileId : String) (file : String)
    (out : Option String) (strict : Bool) (settings : Option String) : Outcome :=
  match prepare w supply file settings with
  | .error e => { error := some e }
  | .ok g =>
    let c := g.compile
    let records := c.markedRecords (some compileId)
    match c.result with
    | .ok program => deliver w out records program.source
    | .error (.failed e) =>
      if strict then { records, error := some (.compile e) }
      else deliver w out records (e.diagnostic ++ "\n")
    | .error .aborted => { records, error := some .aborted }

/-- The line for a graph without problems. -/
def okLine (g : Graph) (program : Program) : String :=
  "ok: " ++ intText g.nodes.length ++ " nodes, " ++ intText g.connections.length
    ++ " connections, " ++ intText program.emitted ++ " emitted, uses "
    ++ ", ".intercalate (program.capabilities.map Capability.name) ++ "\n"

/-- What is printed about problems. -/
def problemLines (problems : List String) : String := String.join (problems.map (· ++ "\n"))

def runCheck (w : Workspace) (supply : IdSupply) (compileId : String) (file : String) : Outcome :=
  match loadGraph w supply file with
  | .error e => { error := some e }
  | .ok (g, errors) =>
    let c := g.compile
    let records := c.markedRecords (some compileId)
    let refused := errors.map BuildError.message
    match c.result with
    | .ok program =>
      if refused.isEmpty then { stdout := okLine g program, records }
      else { stdout := problemLines refused, records, error := some .problems }
    | .error (.failed e) =>
      { stdout := problemLines (refused ++ [e.diagnostic]), records, error := some .problems }
    | .error .aborted => { records, error := some .aborted }

/-- A text filled up with spaces. -/
def padded (width : Nat) (text : String) : String :=
  text ++ String.ofList (List.replicate (width - text.length) ' ')

def portLine (side : String) (p : Port) : String :=
  "  " ++ padded 3 side ++ " " ++ padded 16 p.key ++ " " ++ p.socket.name ++ "\n"

/-- What is printed about a kind. -/
def kindText (kind : Kind) : String :=
  let spec := kind.spec
  kind.name ++ " (" ++ spec.category.name ++ ")\n  " ++ spec.label ++ ": " ++ spec.description
    ++ "\n" ++ String.join (spec.inputs.map (portLine "in"))
    ++ String.join (spec.outputs.map (portLine "out"))

/-- Carries a command out. -/
def run (w : Workspace) (supply : IdSupply) (compileId : String) : Command → Outcome
  | .generate file out strict settings => runGenerate w supply compileId file out strict settings
  | .check file => runCheck w supply compileId file
  | .nodes => { stdout := String.join (Kind.all.map kindText) }
  | .schema => { stdout := Schema.text ++ "\n" }

end Command

end TradeFlow
