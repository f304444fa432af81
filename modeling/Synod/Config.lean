import Synod.Error
import Synod.Yaml.Node

/-! The description of a cluster from the view of one node: its number, the address it listens on, and the
addresses of all acceptors. It is taken from the first document of a YAML text. The fields are checked
in a fixed order, and the first check that fails gives the error. -/

namespace Synod

structure Config where
  nodeId : UInt64
  listen : String
  acceptors : List String
  /-- Milliseconds to wait for the answer to a request. -/
  requestTimeout : Nat
  logLevel : String
deriving DecidableEq, Repr

namespace Config

inductive Field where
  | nodeId
  | listen
  | acceptors
  | requestTimeout
  | logLevel
deriving DecidableEq, Repr

def Field.key : Field → String
  | nodeId => "node_id"
  | listen => "listen"
  | acceptors => "acceptors"
  | requestTimeout => "request_timeout_ms"
  | logLevel => "log_level"

inductive Flaw where
  | negative
  | noAcceptors
  | entryNotText
  | repeated (entry : String)
  | notPositive
  | notText
deriving DecidableEq, Repr

def Flaw.reason : Flaw → String
  | negative => "expected a non-negative integer"
  | noAcceptors => "at least one acceptor is required"
  | entryNotText => "entries must be strings"
  | repeated entry => "duplicate entry `" ++ entry ++ "`"
  | notPositive => "expected a positive integer"
  | notText => "expected a string"

end Config

inductive ConfigError where
  | unreadable (cause : StreamError)
  | yaml (error : Yaml.Error)
  | empty
  | missing (field : Config.Field)
  | invalid (field : Config.Field) (flaw : Config.Flaw)
deriving DecidableEq, Repr

def ConfigError.message : ConfigError → String
  | unreadable cause => "failed to read config: " ++ cause.text
  | yaml error => "invalid yaml: " ++ error.reason
  | empty => "config is empty"
  | missing field => "missing field `" ++ field.key ++ "`"
  | invalid field flaw => "invalid value for `" ++ field.key ++ "`: " ++ flaw.reason

namespace Config

open Yaml (Node)

def defaultTimeout : Nat := 1000

def defaultLogLevel : String := "info"

def nodeIdOf (document : Node) : Except ConfigError UInt64 :=
  match document.get Field.nodeId.key with
  | .bad => .error (.missing .nodeId)
  | .integer value => if 0 ≤ value then .ok value.toNat.toUInt64 else .error (.invalid .nodeId .negative)
  | _ => .error (.invalid .nodeId .negative)

def listenOf (document : Node) : Except ConfigError String :=
  match document.get Field.listen.key with
  | .string address => .ok address
  | _ => .error (.missing .listen)

def addresses (seen : List String) : List Node → Except ConfigError (List String)
  | [] => .ok []
  | .string address :: rest =>
    if address ∈ seen then .error (.invalid .acceptors (.repeated address))
    else (addresses (address :: seen) rest).map (address :: ·)
  | _ :: _ => .error (.invalid .acceptors .entryNotText)

def acceptorsOf (document : Node) : Except ConfigError (List String) :=
  match document.get Field.acceptors.key with
  | .sequence [] => .error (.invalid .acceptors .noAcceptors)
  | .sequence entries => addresses [] entries
  | _ => .error (.missing .acceptors)

def requestTimeoutOf (document : Node) : Except ConfigError Nat :=
  match document.get Field.requestTimeout.key with
  | .bad => .ok defaultTimeout
  | .integer value => if 0 < value then .ok value.toNat else .error (.invalid .requestTimeout .notPositive)
  | _ => .error (.invalid .requestTimeout .notPositive)

def logLevelOf (document : Node) : Except ConfigError String :=
  match document.get Field.logLevel.key with
  | .bad => .ok defaultLogLevel
  | .string level => .ok level
  | _ => .error (.invalid .logLevel .notText)

def ofDocument (document : Node) : Except ConfigError Config := do
  let nodeId ← nodeIdOf document
  let listen ← listenOf document
  let acceptors ← acceptorsOf document
  let requestTimeout ← requestTimeoutOf document
  let logLevel ← logLevelOf document
  return { nodeId, listen, acceptors, requestTimeout, logLevel }

def ofDocuments : List Node → Except ConfigError Config
  | [] => .error .empty
  | document :: _ => ofDocument document

/-- The description in a text, all of whose documents must be well formed. -/
def parse (text : String) : Except ConfigError Config :=
  match Yaml.documents text with
  | .error error => .error (.yaml error)
  | .ok documents => ofDocuments documents

/-- The description in a file, of which the bytes are given if it could be read. -/
def ofFile (content : Except StreamError (List UInt8)) : Except ConfigError Config :=
  match content with
  | .error cause => .error (.unreadable cause)
  | .ok bytes =>
    match String.fromUTF8? ⟨bytes.toArray⟩ with
    | none => .error (.unreadable .invalidData)
    | some text => parse text

end Config

end Synod
