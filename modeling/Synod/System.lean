import Synod.Acceptor
import Synod.Round

/-! Rounds that overlap. All proposers use one table of routes to acceptors. A request may arrive at
any time, also after the phase it belongs to has ended, at most once or never, and an answer may be
lost. What a proposer makes of the answers it heard is what it makes of the replies of any round. -/

namespace Synod

open Round (Draft)

/-- A link of the shared table. Several routes may lead to one acceptor. -/
structure Route where
  endpoint : String
  acceptor : Nat
deriving DecidableEq, Repr

structure Attempt (α : Type) where
  ballot : Ballot
  transform : Transform α
  /-- What the acceptor behind each route answered to the prepare request, once it has arrived. -/
  promises : List (Option (Promise α))
  /-- The replies of the prepare phase as they counted; none before it ended. -/
  heard : List (Reply (Promise α))
  /-- What is sent in the accept phase, once it is entered. -/
  draft : Option (Draft α)
  accepts : List (Option Accepted)
  outcome : Option (Except ProposeError UInt64)

/-- Acceptors, proposers and all rounds begun so far, oldest first. -/
structure System (α : Type) where
  routes : List Route
  records : List (Record α)
  mints : List Mint
  attempts : List (Attempt α)

/-- What can happen next. Rounds, routes and proposers are named by their places. -/
inductive Action (α : Type) where
  /-- A proposer appears, perhaps under a node that others use or have used. -/
  | join (nodeId : UInt64)
  | start (proposer : Nat) (transform : Transform α)
  | prepare (attempt route : Nat)
  /-- A prepare phase ends, with an error for each route whose answer is lost. -/
  | resolve (attempt : Nat) (lost : Nat → Option TransportError)
  | accept (attempt route : Nat)
  | conclude (attempt : Nat) (lost : Nat → Option TransportError)

namespace Attempt

variable {α : Type}

def begin (ballot : Ballot) (transform : Transform α) (routes : Nat) : Attempt α :=
  ⟨ballot, transform, .replicate routes none, [], none, .replicate routes none, none⟩

def preparing (a : Attempt α) : Bool := a.draft.isNone && a.outcome.isNone

def accepting (a : Attempt α) : Bool := a.draft.isSome && a.outcome.isNone

def resolve (a : Attempt α) (heard : List (Reply (Promise α))) : Attempt α :=
  match Round.draft a.transform heard with
  | .ok draft => { a with heard, draft := some draft }
  | .error error => { a with heard, outcome := some (.error error) }

end Attempt

namespace System

variable {α ρ : Type}

def initial (acceptors : Nat) (routes : List Route) : System α := ⟨routes, .replicate acceptors .empty, [], []⟩

/-- The replies of a phase, where some answers are lost and others never came to be. -/
def replies (routes : List Route) (answers : List (Option ρ)) (lost : Nat → Option TransportError) : List (Reply ρ) :=
  (routes.zip answers).zipIdx.map fun ((route, answer), place) =>
    match lost place, answer with
    | some error, _ => .error error
    | none, some reply => .ok reply
    | none, none => .error (.timeout route.endpoint)

/-- A prepare request arrives at its acceptor, unless it did so before. -/
def arrivePrepare (s : System α) (attempt route : Nat) : System α :=
  match s.attempts[attempt]?, s.routes[route]? with
  | some a, some link =>
    match a.promises[route]?, s.records[link.acceptor]? with
    | some none, some record =>
      let (promise, after) := record.prepare a.ballot
      { s with
        records := s.records.set link.acceptor after
        attempts := s.attempts.set attempt { a with promises := a.promises.set route (some promise) } }
    | _, _ => s
  | _, _ => s

/-- An accept request arrives at its acceptor, if its round has sent it and it did not arrive before. -/
def arriveAccept (s : System α) (attempt route : Nat) : System α :=
  match s.attempts[attempt]?, s.routes[route]? with
  | some a, some link =>
    match a.draft, a.accepts[route]?, s.records[link.acceptor]? with
    | some draft, some none, some record =>
      let (accepted, after) := record.accept a.ballot draft.next
      { s with
        records := s.records.set link.acceptor after
        attempts := s.attempts.set attempt { a with accepts := a.accepts.set route (some accepted) } }
    | _, _, _ => s
  | _, _ => s

/-- The system after an action. What cannot happen changes nothing. -/
def step (s : System α) : Action α → System α
  | .join nodeId => { s with mints := s.mints ++ [.fresh nodeId] }
  | .start proposer transform =>
    match s.mints[proposer]? with
    | none => s
    | some mint =>
      { s with
        mints := s.mints.set proposer mint.next.2
        attempts := s.attempts ++ [.begin mint.next.1 transform s.routes.length] }
  | .prepare attempt route => s.arrivePrepare attempt route
  | .resolve attempt lost =>
    match s.attempts[attempt]? with
    | none => s
    | some a =>
      if a.preparing then
        { s with attempts := s.attempts.set attempt (a.resolve (replies s.routes a.promises lost)) }
      else s
  | .accept attempt route => s.arriveAccept attempt route
  | .conclude attempt lost =>
    match s.attempts[attempt]? with
    | none => s
    | some a =>
      match a.draft, a.outcome with
      | some draft, none =>
        let outcome := Round.conclude draft (replies s.routes a.accepts lost)
        { s with attempts := s.attempts.set attempt { a with outcome := some outcome } }
      | _, _ => s

def run (s : System α) (actions : List (Action α)) : System α := actions.foldl step s

end System

end Synod
