import Synod.Acceptor
import Synod.Agenda
import Synod.Round

/-! Carrying out a phase. Each link makes one call, and the call's fate says what becomes of it on the
way: whether it reaches its acceptor, and whether the answer comes back. Fates do not depend on the
acceptors. Calls arrive in the order of their times, and those of one time in the order of the links. -/

namespace Synod

inductive Fate (ρ : Type) where
  | answered
  /-- The acceptor acts on the request, but its answer is lost. -/
  | replyLost (error : TransportError)
  /-- The acceptor never hears of the request. -/
  | dropped (error : TransportError)
  /-- The acceptor never hears of the request, and something else answers in its place. -/
  | forged (reply : ρ)
deriving DecidableEq, Repr

structure Call (ρ : Type) where
  endpoint : String
  acceptor : Nat
  fate : Fate ρ
  /-- When the call arrives, counted from the moment at which the first call is placed. -/
  time : Nat
  /-- What the link itself has to say when the call ends. -/
  remarks : List Event

namespace Delivery

variable {α ρ : Type}

/-- The end of one call: what came back, what was said, and the acceptors after it. -/
def deliver (visit : Visit α ρ) (call : Call ρ) (acceptors : List (Acceptor α)) :
    Reply ρ × List Event × List (Acceptor α) :=
  match call.fate with
  | .dropped error => (.error error, call.remarks, acceptors)
  | .forged reply => (.ok reply, call.remarks, acceptors)
  | .answered =>
    match acceptors[call.acceptor]? with
    | none => (.error (.unreachable call.endpoint), call.remarks, acceptors)
    | some acceptor =>
      let (reply, after) := visit.answer acceptor
      (.ok reply, visit.event acceptor :: call.remarks, acceptors.set call.acceptor after)
  | .replyLost error =>
    match acceptors[call.acceptor]? with
    | none => (.error (.unreachable call.endpoint), call.remarks, acceptors)
    | some acceptor =>
      (.error error, visit.event acceptor :: call.remarks, acceptors.set call.acceptor (visit.answer acceptor).2)

/-- The calls with their places among the links, and when each of them arrives. -/
def schedule (calls : List (Call ρ)) : List (Nat × Call ρ × Nat) :=
  calls.zipIdx.map fun (call, place) => (call.time, call, place)

/-- The calls with their places among the links, in the order in which they arrive. -/
def arrivals (calls : List (Call ρ)) : List (Call ρ × Nat) := (Agenda.insertAll (schedule calls) []).map (·.2)

abbrev Answers (α ρ : Type) := Round.Answers (List (Acceptor α)) ρ

/-- Let the next call arrive, and put its reply into its place. -/
def arrive (visit : Visit α ρ) (answers : Answers α ρ) (arrival : Call ρ × Nat) : Answers α ρ :=
  let (call, place) := arrival
  let (reply, events, acceptors) := deliver visit call answers.world
  ⟨answers.replies.set place reply, answers.events ++ events, acceptors⟩

/-- Carry out a phase: all calls arrive, and their replies stand in the order of the links. -/
def phase (visit : Visit α ρ) (calls : List (Call ρ)) (acceptors : List (Acceptor α)) : Answers α ρ :=
  let waiting := calls.map fun call => .error (.unreachable call.endpoint)
  (arrivals calls).foldl (arrive visit) ⟨waiting, [], acceptors⟩

/-- The channel of a round whose calls have these fates in its two phases. -/
def channel (prepares : List (Call (Promise α))) (accepts : List (Call Accepted)) :
    Round.Channel (List (Acceptor α)) α where
  endpoints := prepares.map (·.endpoint)
  prepare ballot := phase (.prepare ballot) prepares
  accept ballot value := phase (.accept ballot value) accepts

end Delivery

end Synod
