import Synod.Error
import Synod.Ballot

/-! What a cluster has to say about its own work. Every event is recorded as data by the part
that it concerns, and `Event.line` is its line in a log. -/

namespace Synod

inductive Level where
  | debug
  | info
  | warn
deriving DecidableEq, Repr

def Level.name : Level → String
  | .debug => "DEBUG"
  | .info => "INFO"
  | .warn => "WARN"

/-- Whether a log that is asked for this much shows a level. -/
def Level.shownAt (l : Level) : String → Bool
  | "trace" | "debug" => true
  | "info" => l != .debug
  | "warn" => l == .warn
  | _ => false

inductive Event where
  | promised (acceptor : UInt64) (ballot : Ballot)
  | stalePrepare (acceptor : UInt64) (ballot mark : Ballot)
  | accepted (acceptor : UInt64) (state : UInt64) (ballot : Ballot)
  | staleAccept (acceptor : UInt64) (ballot mark : Ballot)
  | requestLost (endpoint : String)
  | replyLost (endpoint : String)
  | roundStarted (node : UInt64) (ballot : Ballot) (links : Nat)
  | callFailed (node : UInt64) (phase : Phase) (ballot : Ballot) (endpoint : String) (error : TransportError)
  | promisesMissing (node : UInt64) (ballot : Ballot) (tally : Tally) (needed : Nat)
  | aborted (node : UInt64) (ballot : Ballot) (state : Option UInt64)
  | exhausted (node : UInt64) (ballot : Ballot) (state : UInt64)
  | acceptsMissing (node : UInt64) (ballot : Ballot) (state : UInt64) (tally : Tally) (needed : Nat)
  | committed (node : UInt64) (state : UInt64) (ballot : Ballot)
  | clusterJoined (node : UInt64) (links needed : Nat)
  | listening (node : UInt64) (address : String)
  | idle (node : UInt64)
  | disconnected (node : UInt64)
  | connectionFailed (peer : String) (error : TransportError)
deriving DecidableEq, Repr

namespace Event

def level : Event → Level
  | promised .. | accepted .. | roundStarted .. | committed .. | clusterJoined .. | listening .. => .info
  | requestLost .. | replyLost .. | idle .. | disconnected .. => .debug
  | _ => .warn

private def votes (tally : Tally) (needed : Nat) : String :=
  "(needed " ++ toString needed ++ ", " ++ toString tally.rejected ++ " rejected, " ++
    toString tally.failed ++ " unreachable)"

def message : Event → String
  | promised acceptor ballot => s!"Acceptor {acceptor}: Promised ballot {ballot.text}"
  | stalePrepare acceptor ballot mark =>
    s!"Acceptor {acceptor}: Stale prepare with ballot {ballot.text} (already promised {mark.text})"
  | accepted acceptor state ballot => s!"Acceptor {acceptor}: Accepted state {state} at ballot {ballot.text}"
  | staleAccept acceptor ballot mark =>
    s!"Acceptor {acceptor}: Stale accept with ballot {ballot.text} (already promised {mark.text})"
  | requestLost endpoint => s!"Simulation: Request to {endpoint} lost"
  | replyLost endpoint => s!"Simulation: Reply from {endpoint} lost"
  | roundStarted node ballot links =>
    s!"Proposer {node}: Starting round with ballot {ballot.text} against {links} acceptors"
  | callFailed node phase ballot endpoint error =>
    let request := match phase with
      | .prepare => "Prepare"
      | .accept => "Accept"
    s!"Proposer {node}: {request} {ballot.text} to {endpoint} failed: {error.message}"
  | promisesMissing node ballot tally needed =>
    s!"Proposer {node}: Ballot {ballot.text} got {tally.granted} promises {votes tally needed}"
  | aborted node ballot state => s!"Proposer {node}: Ballot {ballot.text} aborted, register at state {stateText state}"
  | exhausted node ballot state => s!"Proposer {node}: Ballot {ballot.text} cannot advance past state {state}"
  | acceptsMissing node ballot state tally needed =>
    s!"Proposer {node}: Ballot {ballot.text} got {tally.granted} accepts for state {state} {votes tally needed}"
  | committed node state ballot => s!"Proposer {node}: Committed state {state} with ballot {ballot.text}"
  | clusterJoined node links needed => s!"Node {node}: Cluster of {links} acceptors, quorum {needed}"
  | listening node address => s!"Node {node}: Listening on {address}"
  | idle node => s!"Node {node}: Closing idle connection"
  | disconnected node => s!"Node {node}: Connection closed"
  | connectionFailed peer error => s!"Connection from {peer} failed: {error.message}"

def line (e : Event) : String := e.level.name ++ " " ++ e.message

end Event

end Synod
