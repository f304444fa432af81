import Synod.Agenda
import Synod.System

/-! A race of proposers on one clock. Every proposer runs its rounds back to back, and each of its
requests takes the same time to a given acceptor. The clock turns the race into a sequence of actions
of the system, in the order of their times. -/

namespace Synod

inductive Expectation where
  | exactly (state : Option UInt64)
  /-- The latest state that the proposer has learned of. -/
  | lastKnown
deriving DecidableEq, Repr

/-- A proposer of the race. An acceptor without a latency cannot be reached. -/
structure Racer (α : Type) where
  nodeId : UInt64
  start : Nat
  latencies : List (Option Nat)
  rounds : List (Expectation × α)

inductive Task where
  | begin
  | arrive (route : Nat)
  | finish
deriving DecidableEq, Repr

structure Runner (α : Type) where
  latencies : List (Option Nat)
  left : List (Expectation × α)
  known : Option UInt64
  attempt : Nat
  /-- Results so far, last one first. -/
  results : List (Except ProposeError UInt64)

/-- The state of a race: the system, the racers, and what is to happen, earliest first. -/
structure Race (α : Type) where
  system : System α
  runners : List (Runner α)
  agenda : List (Nat × Nat × Task)

namespace Runner

variable {α : Type}

def note (r : Runner α) (result : Except ProposeError UInt64) : Runner α :=
  let learned := match result with
    | .ok state => some state
    | .error error => error.currentState
  { r with known := learned.or r.known, results := result :: r.results }

/-- The answers that do not come, for want of a way. -/
def unreachable (r : Runner α) (route : Nat) : Option TransportError :=
  match r.latencies[route]? with
  | some (some _) => none
  | _ => some (.unreachable (toString route))

def phaseLength (r : Runner α) : Nat := (r.latencies.filterMap id).foldl max 0

end Runner

namespace Race

variable {α : Type}

def plan (r : Race α) (entry : Nat × Nat × Task) : Race α := { r with agenda := Agenda.insert entry r.agenda }

def send (r : Race α) (now racer : Nat) (runner : Runner α) : Race α :=
  let arrivals := runner.latencies.zipIdx.filterMap fun (latency, route) =>
    latency.map fun latency => (now + latency, racer, Task.arrive route)
  { r with agenda := Agenda.insertAll (arrivals ++ [(now + runner.phaseLength, racer, .finish)]) r.agenda }

/-- Take down a result and go on with the next round. -/
def finishRound (r : Race α) (now racer : Nat) (runner : Runner α) (result : Except ProposeError UInt64) : Race α :=
  { r with runners := r.runners.set racer (runner.note result) }.plan (now, racer, .begin)

def perform (r : Race α) (now racer : Nat) (task : Task) : Race α :=
  match r.runners[racer]? with
  | none => r
  | some runner =>
    match task with
    | .begin =>
      match runner.left with
      | [] => r
      | (expectation, payload) :: left =>
        let expected := match expectation with
          | .exactly state => state
          | .lastKnown => runner.known
        let runner := { runner with left, attempt := r.system.attempts.length }
        let system := r.system.step (.start racer (compareAndSet expected payload))
        { r with system, runners := r.runners.set racer runner }.send now racer runner
    | .arrive route =>
      match r.system.attempts[runner.attempt]? with
      | none => r
      | some attempt =>
        let action := if attempt.preparing then .prepare runner.attempt route else .accept runner.attempt route
        { r with system := r.system.step action }
    | .finish =>
      match r.system.attempts[runner.attempt]? with
      | none => r
      | some attempt =>
        let action :=
          if attempt.preparing then .resolve runner.attempt runner.unreachable
          else .conclude runner.attempt runner.unreachable
        let r := { r with system := r.system.step action }
        match (r.system.attempts[runner.attempt]?).bind (·.outcome) with
        | some result => r.finishRound now racer runner result
        | none => r.send now racer runner

/-- Do the first so many things on the agenda. -/
def advance (r : Race α) : Nat → Race α
  | 0 => r
  | steps + 1 =>
    match r.agenda with
    | [] => r
    | (now, racer, task) :: agenda => advance ({ r with agenda }.perform now racer task) steps

/-- One route to each acceptor. -/
def routes (acceptors : Nat) : List Route := (List.range acceptors).map fun acceptor => ⟨toString acceptor, acceptor⟩

/-- The race before it starts. Racers that start together start in their order. -/
def initial (acceptors : Nat) (racers : List (Racer α)) : Race α :=
  { system := (System.initial acceptors (routes acceptors)).run (racers.map fun racer => .join racer.nodeId)
    runners := racers.map fun racer => ⟨racer.latencies, racer.rounds, none, 0, []⟩
    agenda := Agenda.insertAll (racers.zipIdx.map fun (racer, place) => (racer.start, place, .begin)) [] }

/-- Every round takes at most this many steps. -/
def stepsPerRound (acceptors : Nat) : Nat := 2 * acceptors + 3

def run (acceptors : Nat) (racers : List (Racer α)) : Race α :=
  let rounds := racers.foldl (fun rounds racer => rounds + racer.rounds.length + 1) 0
  (initial acceptors racers).advance (rounds * stepsPerRound acceptors)

def results (r : Race α) : List (List (Except ProposeError UInt64)) := r.runners.map fun runner => runner.results.reverse

end Race

end Synod
