import TradeFlow.Graph.Basic
import TradeFlow.Text.Quoted

/-!
Why an edit of a graph was refused.
-/

namespace TradeFlow

/-- Why nodes or settings were refused. A bare node has no config, hence no kind and no ports. -/
inductive EditError where
  | unknownKind (name : String)
  | emptyId
  | noConfig (id : String)
  | notSealed (id : String) (config : NodeConfig)
  | duplicateNode (id : String)
  | nodeNotFound (id : String)
  | kindMismatch (id : String) (kind : Kind) (config : NodeConfig)
  | connectionNotFound (id : String)
  | bareNode (id : String)
  deriving DecidableEq, Repr

def EditError.message : EditError → String
  | .unknownKind name => "unknown node kind: " ++ name
  | .emptyId => "invalid node: node ID cannot be empty"
  | .noConfig id => "invalid node: node " ++ id ++ " has no config"
  | .notSealed id config => "invalid node: node " ++ id ++ " has config of type " ++ config.typeName
  | .duplicateNode id => "duplicate node ID: " ++ id
  | .nodeNotFound id => "node not found: " ++ id
  | .kindMismatch id kind config =>
    "invalid node: node " ++ id ++ " is a " ++ kind.name ++ ", got " ++ config.typeName
  | .connectionNotFound id => "connection not found: " ++ id
  | .bareNode id => "node " ++ id ++ " has no config"

/-- Why a connection was refused. -/
inductive Rejection where
  | nodeNotFound (id : String)
  | noOutput (kind : Kind) (key : String)
  | noInput (kind : Kind) (key : String)
  | incompatible (source target : Socket)
  | occupied
  | duplicate (id : String)
  | bareNode (id : String)
  deriving DecidableEq, Repr

def Rejection.message : Rejection → String
  | .nodeNotFound id => "node not found: " ++ id
  | .noOutput kind key => "port not found: " ++ kind.name ++ " has no output " ++ quoted key
  | .noInput kind key => "port not found: " ++ kind.name ++ " has no input " ++ quoted key
  | .incompatible source target => "incompatible sockets: " ++ source.name ++ " -> " ++ target.name
  | .occupied => "input already connected"
  | .duplicate id => "duplicate connection ID: " ++ id
  | .bareNode id => "node " ++ id ++ " has no config"

/-- A refused connection with its ends. -/
structure ConnectionError where
  link : Link
  cause : Rejection
  deriving DecidableEq, Repr

def ConnectionError.message (e : ConnectionError) : String :=
  "connect " ++ e.link.source ++ "." ++ e.link.sourceOutput ++ " -> " ++ e.link.target ++ "."
    ++ e.link.targetInput ++ ": " ++ e.cause.message

end TradeFlow
