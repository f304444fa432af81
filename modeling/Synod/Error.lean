import Synod.Fault
import Synod.Quorum

/-! What can go wrong with a round and with a request to an acceptor, and the words in which it
is reported. The causes are data; `message` is the only place that turns them into text. -/

namespace Synod

inductive Phase where
  | prepare
  | accept
deriving DecidableEq, Repr

def Phase.name : Phase → String
  | .prepare => "prepare"
  | .accept => "accept"

def stateText : Option UInt64 → String
  | none => "None"
  | some state => "Some(" ++ toString state ++ ")"

/-- Why a round committed nothing. Each cause carries what the round learned of the register. -/
inductive ProposeError where
  /-- Too few links granted the phase. In the prepare phase nothing is known of the register. -/
  | quorumUnavailable (phase : Phase) (granted needed : Nat) (current : Option UInt64)
  | conflict (current : Option UInt64)
  | stateExhausted (current : UInt64)
deriving DecidableEq, Repr

namespace ProposeError

/-- The state in which the failed round saw the register, if it saw one. -/
def currentState : ProposeError → Option UInt64
  | quorumUnavailable _ _ _ current => current
  | conflict current => current
  | stateExhausted current => some current

def message : ProposeError → String
  | quorumUnavailable phase granted needed _ =>
    phase.name ++ " phase reached " ++ toString granted ++ " of " ++ toString needed ++ " required votes"
  | conflict current => "transform aborted at state " ++ stateText current
  | stateExhausted current => "state counter exhausted at " ++ toString current

end ProposeError

/-- The causes that the operating system gives for a failed stream or file. -/
inductive StreamError where
  | unexpectedEnd
  | brokenPipe
  | connectionRefused
  | networkUnreachable
  | invalidInput
  | notFound
  | isDirectory
  | invalidData
  | other
deriving DecidableEq, Repr

def StreamError.text : StreamError → String
  | .unexpectedEnd => "early eof"
  | .brokenPipe => "Broken pipe (os error 32)"
  | .connectionRefused => "Connection refused (os error 111)"
  | .networkUnreachable => "Network is unreachable (os error 101)"
  | .invalidInput => "invalid socket address"
  | .notFound => "No such file or directory (os error 2)"
  | .isDirectory => "Is a directory (os error 21)"
  | .invalidData => "stream did not contain valid UTF-8"
  | .other => "other error"

inductive TransportError where
  | timeout (endpoint : String)
  | unreachable (endpoint : String)
  | stream (cause : StreamError) (detail : String)
  | codec (fault : Fault) (detail : String)
  | frameTooLarge (size limit : Nat)
  /-- The peer answered with a reply to some other kind of request. -/
  | unexpectedReply (request : String)
deriving DecidableEq, Repr

def TransportError.message : TransportError → String
  | timeout endpoint => "request to " ++ endpoint ++ " timed out"
  | unreachable endpoint => "acceptor " ++ endpoint ++ " is unreachable"
  | stream _ detail => "i/o error: " ++ detail
  | codec _ detail => "codec error: " ++ detail
  | frameTooLarge size limit => "frame of " ++ toString size ++ " bytes exceeds limit of " ++ toString limit
  | unexpectedReply request => "unexpected reply to " ++ request ++ " request"

def TransportError.ofStream (cause : StreamError) : TransportError := .stream cause cause.text

/-- What comes back from one request: a reply, or the reason why there is none. -/
abbrev Reply (ρ : Type) := Except TransportError ρ

end Synod
