import Synod.Node

/-! The work that a request makes for a node. Where a node has to ask all its links, the work says what to ask of
them and how to go on with their replies. How the links are reached is left to those who carry the work out. -/

namespace Synod

inductive Work (α : Type) where
  | done (events : List Event) (response : Response α)
  | ask (events : List Event) (demand : Demand α) (resume : List (Reply (Response α)) → Work α)

variable {σ α : Type}

/-- A round over links with these labels. -/
def Round.work (node : UInt64) (ballot : Ballot) (endpoints : List String) (transform : Transform α) : Work α :=
  .ask [.roundStarted node ballot endpoints.length] (.prepare ballot) fun replies =>
    let promises := replies.map Response.toPromise
    let failed := failures node .prepare ballot endpoints promises
    match draft transform promises with
    | .error error =>
      .done (failed ++ [farewell node ballot (·.ok) promises none (.error error)]) (.proposed (.ofResult (.error error)))
    | .ok draft => .ask failed (.accept ballot draft.next) fun replies =>
      let accepteds := replies.map Response.toAccepted
      let outcome := conclude draft accepteds
      let failed := failures node .accept ballot endpoints accepteds
      .done (failed ++ [farewell node ballot (·.ok) accepteds (some draft.next.state) outcome])
        (.proposed (.ofResult outcome))

namespace Node

/-- The answer of the own acceptor to a request, and what it has to say about it. -/
def meet (n : Node α) (demand : Demand α) : (Response α × Event) × Node α :=
  let (response, acceptor) := n.acceptor.answer demand
  ((response, n.acceptor.event demand), { n with acceptor })

def begin (n : Node α) : Request α → Work α × Node α
  | .prepare ballot =>
    let ((response, event), n) := n.meet (.prepare ballot)
    (.done [event] response, n)
  | .accept ballot value =>
    let ((response, event), n) := n.meet (.accept ballot value)
    (.done [event] response, n)
  | .propose expected payload =>
    let (ballot, mint) := n.mint.next
    (Round.work n.mint.nodeId ballot (n.ways.map n.endpoint) (compareAndSet expected payload), { n with mint })

/-- A phase in which all links are asked for the same thing. -/
def askAll (n : Node α) (peers : Peers σ α) (demand : Demand α) (world : Acceptor α × σ) :
    Round.Answers (Acceptor α × σ) (Response α) :=
  phase (.ofDemand demand) (fun address => peers.call address demand.request) n.ways world

/-- Carry out work, one phase after another. -/
def carryOut (peers : Peers σ α) (n : Node α) (world : σ) : Work α → Handled σ α
  | .done events response => ⟨response, events, n, world⟩
  | .ask events demand resume =>
    let answers := n.askAll peers demand (n.acceptor, world)
    let (acceptor, world) := answers.world
    let handled := carryOut peers { n with acceptor } world (resume answers.replies)
    { handled with events := events ++ answers.events ++ handled.events }

end Node

end Synod
