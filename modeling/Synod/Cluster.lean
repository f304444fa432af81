import Synod.Link

/-! A cluster in one place: acceptors, links that lead to them, and proposers that use some of the
links. Rounds run one after another. -/

namespace Synod

structure Cluster (α : Type) where
  acceptors : List (Acceptor α)
  links : List (Link α)

/-- A proposer, with the places of its links in the order in which it calls them. -/
structure Proposer where
  mint : Mint
  links : List Nat
deriving Repr

def Proposer.quorum (p : Proposer) : Nat := majority p.links.length

namespace Cluster

variable {α ρ : Type}

/-- Place the calls of a phase, first link first. -/
def dial (next : Link α → Call ρ × Link α) : List Nat → List (Link α) → List (Call ρ) × List (Link α)
  | [], links => ([], links)
  | place :: rest, links =>
    match links[place]? with
    | none =>
      let (calls, links) := dial next rest links
      (⟨"", 0, .dropped (.unreachable ""), 0, []⟩ :: calls, links)
    | some link =>
      let (call, link) := next link
      let (calls, links) := dial next rest (links.set place link)
      (call :: calls, links)

def phase (visit : Visit α ρ) (next : Link α → Call ρ × Link α) (places : List Nat) (c : Cluster α) :
    Round.Answers (Cluster α) ρ :=
  let (calls, links) := dial next places c.links
  let answers := Delivery.phase visit calls c.acceptors
  ⟨answers.replies, answers.events, ⟨answers.world, links⟩⟩

def channel (places : List Nat) (c : Cluster α) : Round.Channel (Cluster α) α where
  endpoints := places.map fun place => (c.links[place]?.map (·.endpoint)).getD ""
  prepare ballot := phase (.prepare ballot) Link.prepare places
  accept ballot value := phase (.accept ballot value) Link.accept places

def propose (p : Proposer) (transform : Transform α) (c : Cluster α) : Round.Report α × Proposer × Cluster α :=
  let (ballot, mint) := p.mint.next
  let (report, c') := Round.run p.mint.nodeId ballot (c.channel p.links) transform c
  (report, { p with mint }, c')

end Cluster

end Synod
