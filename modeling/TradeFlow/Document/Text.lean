import TradeFlow.Document.Build
import TradeFlow.Document.Json
import TradeFlow.Document.Yaml

/-!
Texts of documents and of settings, in either format.

A document is validated as soon as it has been read, so whatever `Document.decode` gives obeys the
rules of documents.
-/

namespace TradeFlow

/-- Why a text in YAML cannot be read. -/
def DocumentError.ofFault : Yaml.Fault → DocumentError
  | .refused => .unreadable .yaml
  | .incomparable => .aborted .yaml

namespace Document

/-- The document that a text in a format stands for, before it is validated. -/
def ofText (format : DocumentFormat) (text : String) : Except DocumentError Document :=
  match format with
  | .json => (ofJsonText? text).elim (.error (.unreadable .json)) .ok
  | .yaml => (ofYamlText text).mapError DocumentError.ofFault

/-- The text of a document in a format. -/
def toText? (d : Document) (format : DocumentFormat) : Option String :=
  match format with
  | .json => d.toJsonText?
  | .yaml => some d.toYamlText

/-- Reads and validates a document in the format with a name. -/
def decode (format : String) (text : String) : Except DocumentError Document :=
  match DocumentFormat.ofName? format with
  | none => .error (.unsupported format)
  | some format =>
    (ofText format text).bind fun d => d.validate.map fun _ => d

/-- Writes a document in the format with a name. -/
def encode (d : Document) (format : String) : Except DocumentError String :=
  match DocumentFormat.ofName? format with
  | none => .error (.unsupported format)
  | some format =>
    match d.toText? format with
    | none => .error (.unwritable format)
    | some text => .ok text

end Document

/-- Reads entries, such as those of a settings file. -/
def Entries.decode (format : DocumentFormat) (text : String) : Except DocumentError Entries :=
  match format with
  | .json => (Json.entriesOfText? text).elim (.error (.unreadable .json)) .ok
  | .yaml => (Yaml.entriesOfText text).mapError DocumentError.ofFault

end TradeFlow
