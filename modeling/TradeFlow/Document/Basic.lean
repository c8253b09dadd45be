import TradeFlow.Graph.Basic
import TradeFlow.Overlay
import TradeFlow.Text.Lower

/-!
Graph documents: the form in which strategy graphs are stored.
-/

namespace TradeFlow

/-- A node of a document. Its settings are loosely typed and may be missing. -/
structure DocumentNode where
  id : String
  kind : String
  position : Position
  config : Option Entries

/-- A document. A list that the document does not have is told apart from an empty one. -/
structure Document where
  version : Int
  nodes : Option (List DocumentNode)
  connections : Option (List Connection)

namespace DocumentNode

/-- A node about which nothing is known. -/
def blank : DocumentNode := ⟨"", "", ⟨0, 0⟩, none⟩

end DocumentNode

namespace Document

/-- The version of the format. -/
def currentVersion : Int := 1

/-- A connection about which nothing is known. -/
def blankConnection : Connection := ⟨⟨"", "", "", ""⟩, ""⟩

/-- A document about which nothing is known. -/
def blank : Document := ⟨0, none, none⟩

def nodeList (d : Document) : List DocumentNode := d.nodes.getD []

def connectionList (d : Document) : List Connection := d.connections.getD []

end Document

/-- The formats in which documents and settings are written. -/
inductive DocumentFormat where
  | yaml
  | json
  deriving DecidableEq, Repr

namespace DocumentFormat

def name : DocumentFormat → String
  | .yaml => "yaml"
  | .json => "json"

def ofName? (name : String) : Option DocumentFormat :=
  if name = "yaml" then some .yaml else if name = "json" then some .json else none

/-- The last element of a path from its last dot on, in lower case. -/
def extension (path : String) : String :=
  let element := (path.toList.reverse.takeWhile (· != '/')).reverse
  if element.contains '.' then
    lowerCase (String.ofList ('.' :: (element.reverse.takeWhile (· != '.')).reverse))
  else ""

/-- The format of a file extension. -/
def ofExtension? (extension : String) : Option DocumentFormat :=
  if extension = ".yaml" ∨ extension = ".yml" then some .yaml
  else if extension = ".json" then some .json
  else none

/-- The format that the extension of a path stands for. -/
def ofPath? (path : String) : Option DocumentFormat := ofExtension? (extension path)

end DocumentFormat

/-- Why a document cannot be read or written. -/
inductive DocumentError where
  | unsupported (format : String)
  | unreadable (format : DocumentFormat)
  | unwritable (format : DocumentFormat)
  /-- A text in a format holds something on which reading stops abruptly. -/
  | aborted (format : DocumentFormat)
  | invalid (problems : List String)
  deriving DecidableEq, Repr

def DocumentError.message : DocumentError → String
  | .unsupported format => "unsupported document format: " ++ quoted format
  | .unreadable format => "parse " ++ format.name
  | .unwritable format => "encode " ++ format.name
  | .aborted format => "reading " ++ format.name ++ " aborted"
  | .invalid problems => "invalid document: " ++ "\n".intercalate problems

end TradeFlow
