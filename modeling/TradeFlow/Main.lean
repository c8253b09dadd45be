import TradeFlow.Command.Run

/-!
The program: reads the files that a command needs, lets the command decide, and carries out what it
says.
-/

namespace TradeFlow

/-- How to use the program. -/
def usageText : String :=
  "usage: stratgraph [--log-level LEVEL] [--log-format text|json] COMMAND\n\n"
    ++ "commands:\n"
    ++ "  generate --file PATH [--out PATH] [--strict] [--settings PATH]\n"
    ++ "           print the program for a graph document\n"
    ++ "  check --file PATH\n"
    ++ "           validate a graph document and report every problem\n"
    ++ "  nodes    list the node kinds and their ports\n"
    ++ "  schema   print the JSON Schema of graph documents\n"

/-- The cause of a failed access to a file. -/
def FileError.ofError : IO.Error → FileError
  | .noFileOrDirectory .. => .missing
  | .inappropriateType .. => .isDirectory
  | .permissionDenied .. => .denied
  | e => .other (toString e)

/-- Does something with a file, and says what stood in the way. -/
def attempt {α : Type} (action : IO α) : IO (Except FileError α) := do
  try return .ok (← action)
  catch e => return .error (FileError.ofError e)

/-- A text that has not been seen before, in all likelihood. -/
def freshText : IO String := do
  let parts ← (List.range 4).mapM fun _ => IO.rand 0x10000 0xfffff
  return String.join (parts.map fun n => String.ofList (Nat.toDigits 16 n))

/-- The files that were read before the command runs. -/
def workspace (files : List (String × Except FileError String))
    (obstacles : List (String × FileError)) : Workspace where
  read := fun path => (files.lookup path).getD (.error .missing)
  obstacle? := fun path => obstacles.lookup path

/-- The bytes of a text. -/
def bytesOf (text : String) : ByteArray := ⟨((textBytes text).map Nat.toUInt8).toArray⟩

/-- Writes the file of an outcome; if that fails, the outcome is the one for a file that cannot be
written. -/
def settle (run : List (String × FileError) → Outcome) : IO Outcome := do
  let outcome := run []
  match outcome.written with
  | none => return outcome
  | some (path, text) =>
    match ← attempt (IO.FS.writeBinFile (shownText path) (bytesOf text)) with
    | .ok _ => return outcome
    | .error e => return run [(path, e)]

/-- Runs a command and gives the exit code. -/
def execute (logging : Logging) (c : Command) : IO UInt32 := do
  let start ← IO.monoMsNow
  let files ← c.inputs.mapM fun (path : String) => do
    return (path, (← attempt (IO.FS.readFile (shownText path))).map Stray.protect)
  let compileId ← freshText
  let stem ← freshText
  let supply : IdSupply := { ids := fun n => stem ++ "-" ++ toString n }
  let outcome ← settle fun obstacles => c.run (workspace files obstacles) supply compileId
  let elapsed := (← IO.monoMsNow) - start
  (← IO.getStderr).write (bytesOf (logging.text outcome.records (toString elapsed)))
  (← IO.getStdout).write (bytesOf outcome.stdout)
  match outcome.error with
  | none => return 0
  | some e =>
    (← IO.getStderr).write (bytesOf ("stratgraph: " ++ e.message ++ "\n"))
    return 1

end TradeFlow

open TradeFlow in
/-- The entry point. -/
def main (args : List String) : IO UInt32 := do
  match Invocation.ofArguments (args.map Stray.protect) with
  | .usage failed =>
    if failed then
      IO.eprint usageText
      return 1
    else
      IO.print usageText
      return 0
  | .refused e =>
    IO.eprintln ("stratgraph: " ++ e.message)
    return 1
  | .command logging c => execute logging c
