import Synod.Delivery

/-! Kinds of links. A direct link hands a request to its acceptor. A simulated link behaves like a
network: it takes time, loses requests and replies, and can be cut off. A faulty link fails by a
script, and a canned link answers by one without any acceptor. -/

namespace Synod

inductive Loss where
  | never
  | always
  | sometimes (rate : Float)

namespace Loss

/-- Rates are cut to the range from zero to one. What is no rate at all loses nothing. -/
def ofRate (rate : Float) : Loss :=
  if 1.0 ≤ rate then always else if 0.0 < rate then sometimes rate else never

def draw (loss : Loss) (chance : StdGen) : Bool × StdGen :=
  match loss with
  | never => (false, chance)
  | always => (true, chance)
  | sometimes rate =>
    let (number, chance) := randNat chance 0 0xFFFFFFFF
    (number.toFloat / 4294967296.0 < rate, chance)

end Loss

/-- The state of a simulated link. Latencies lie from the first bound up to, and not including, the
second; where there are none, calls take no time. -/
structure Simulation where
  latency : Nat × Nat
  loss : Loss
  cutOff : Bool
  chance : StdGen

inductive Treatment where
  | pass
  | drop
  | loseReply
  | refuse
  | unreachable
deriving DecidableEq, Repr

/-- What a link is. Scripts have an entry for each call of a phase, and the last entry repeats. -/
inductive LinkKind (α : Type) where
  | direct
  | simulated (simulation : Simulation)
  | faulty (prepares accepts : List Treatment)
  | canned (promises : List (Reply (Promise α))) (accepteds : List (Reply Accepted))

structure Link (α : Type) where
  endpoint : String
  acceptor : Nat
  kind : LinkKind α

namespace Link

variable {α ρ : Type}

/-- A link that calls the acceptor at a place in the process. -/
def toLocal (acceptor : Acceptor α) (place : Nat) : Link α := ⟨acceptor.endpoint, place, .direct⟩

/-- A link to the acceptor at a place over a simulated network. -/
def overNetwork (acceptor : Acceptor α) (place : Nat) (s : Simulation) : Link α :=
  ⟨"sim:" ++ toString acceptor.id, place, .simulated s⟩

def advance {τ : Type} : List τ → Option τ × List τ
  | [] => (none, [])
  | [last] => (some last, [last])
  | next :: rest => (some next, rest)

/-- A call over the link that acts as soon as it is placed. -/
def call (l : Link α) (fate : Fate ρ) : Call ρ := ⟨l.endpoint, l.acceptor, fate, 0, []⟩

/-- A call over a simulated link. It is under way only once every call of the phase is placed. -/
def simulate (l : Link α) (s : Simulation) : Call ρ × Simulation :=
  if s.cutOff then (l.call (.dropped (.unreachable l.endpoint)), s)
  else
    let (delay, chance) := if s.latency.1 < s.latency.2 then randNat s.chance s.latency.1 (s.latency.2 - 1) else (0, s.chance)
    let (requestLost, chance) := s.loss.draw chance
    if requestLost then
      (⟨l.endpoint, l.acceptor, .dropped (.timeout l.endpoint), delay + 1, [.requestLost l.endpoint]⟩, { s with chance })
    else
      let (replyLost, chance) := s.loss.draw chance
      if replyLost then
        (⟨l.endpoint, l.acceptor, .replyLost (.timeout l.endpoint), delay + 1, [.replyLost l.endpoint]⟩, { s with chance })
      else (⟨l.endpoint, l.acceptor, .answered, delay + 1, []⟩, { s with chance })

/-- A call over a faulty link; the refusal is the reply that it makes up. -/
def obey (l : Link α) (refusal : ρ) : Option Treatment → Call ρ
  | none | some .pass => l.call .answered
  | some .drop => l.call (.dropped (.timeout l.endpoint))
  | some .loseReply => l.call (.replyLost (.timeout l.endpoint))
  | some .refuse => l.call (.forged refusal)
  | some .unreachable => l.call (.dropped (.unreachable l.endpoint))

def recite (l : Link α) : Option (Reply ρ) → Call ρ
  | none => l.call (.dropped (.timeout l.endpoint))
  | some (.ok reply) => l.call (.forged reply)
  | some (.error error) => l.call (.dropped error)

def prepare (l : Link α) : Call (Promise α) × Link α :=
  match l.kind with
  | .direct => (l.call .answered, l)
  | .simulated s =>
    let (call, s) := l.simulate s
    (call, { l with kind := .simulated s })
  | .faulty prepares accepts =>
    let (mode, prepares) := advance prepares
    (l.obey .rejected mode, { l with kind := .faulty prepares accepts })
  | .canned promises accepteds =>
    let (reply, promises) := advance promises
    (l.recite reply, { l with kind := .canned promises accepteds })

def accept (l : Link α) : Call Accepted × Link α :=
  match l.kind with
  | .direct => (l.call .answered, l)
  | .simulated s =>
    let (call, s) := l.simulate s
    (call, { l with kind := .simulated s })
  | .faulty prepares accepts =>
    let (mode, accepts) := advance accepts
    (l.obey ⟨false⟩ mode, { l with kind := .faulty prepares accepts })
  | .canned promises accepteds =>
    let (reply, accepteds) := advance accepteds
    (l.recite reply, { l with kind := .canned promises accepteds })

def isCutOff (l : Link α) : Bool :=
  match l.kind with
  | .simulated s => s.cutOff
  | _ => false

def setCutOff (l : Link α) (cutOff : Bool) : Link α :=
  match l.kind with
  | .simulated s => { l with kind := .simulated { s with cutOff } }
  | _ => l

end Link

end Synod
