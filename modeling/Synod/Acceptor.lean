import Synod.Event
import Synod.Message

/-! Acceptors. An acceptor remembers the highest ballot it has seen and the last proposal it
accepted. It promises only ballots strictly above that mark and accepts at or above it; the
difference is what lets the round that was promised a ballot use it once. -/

namespace Synod

structure Record (α : Type) where
  promised : Ballot
  accepted : Option (Proposal α)
deriving DecidableEq, Repr

namespace Record

variable {α : Type}

def empty : Record α := ⟨.zero, none⟩

def prepare (ballot : Ballot) (r : Record α) : Promise α × Record α :=
  if ballot ≤ r.promised then (.rejected, r)
  else (.granted r.accepted, { r with promised := ballot })

def accept (ballot : Ballot) (value : Value α) (r : Record α) : Accepted × Record α :=
  if ballot < r.promised then (⟨false⟩, r)
  else (⟨true⟩, ⟨ballot, some ⟨ballot, value⟩⟩)

end Record

/-- A record with the number of the acceptor that keeps it. -/
structure Acceptor (α : Type) where
  id : UInt64
  record : Record α
deriving DecidableEq, Repr

namespace Acceptor

variable {α : Type}

def fresh (id : UInt64) : Acceptor α := ⟨id, .empty⟩

/-- The label of an acceptor that is called in the process. -/
def endpoint (a : Acceptor α) : String := "local:" ++ toString a.id

def prepare (ballot : Ballot) (a : Acceptor α) : Promise α × Acceptor α :=
  let (promise, record) := a.record.prepare ballot
  (promise, { a with record })

def accept (ballot : Ballot) (value : Value α) (a : Acceptor α) : Accepted × Acceptor α :=
  let (accepted, record) := a.record.accept ballot value
  (accepted, { a with record })

/-- What an acceptor has to say about a prepare request that reaches it now. -/
def prepareEvent (ballot : Ballot) (a : Acceptor α) : Event :=
  if ballot ≤ a.record.promised then .stalePrepare a.id ballot a.record.promised
  else .promised a.id ballot

def acceptEvent (ballot : Ballot) (value : Value α) (a : Acceptor α) : Event :=
  if ballot < a.record.promised then .staleAccept a.id ballot a.record.promised
  else .accepted a.id value.state ballot

def answer (a : Acceptor α) : Demand α → Response α × Acceptor α
  | .prepare ballot => (.promise (a.prepare ballot).1, (a.prepare ballot).2)
  | .accept ballot value => (.accepted (a.accept ballot value).1, (a.accept ballot value).2)

def event (a : Acceptor α) : Demand α → Event
  | .prepare ballot => a.prepareEvent ballot
  | .accept ballot value => a.acceptEvent ballot value

end Acceptor

/-- A request as the acceptor meets it: how it answers, and what it has to say about it. -/
structure Visit (α ρ : Type) where
  answer : Acceptor α → ρ × Acceptor α
  event : Acceptor α → Event

namespace Visit

variable {α : Type}

def prepare (ballot : Ballot) : Visit α (Promise α) := ⟨Acceptor.prepare ballot, Acceptor.prepareEvent ballot⟩

def accept (ballot : Ballot) (value : Value α) : Visit α Accepted :=
  ⟨Acceptor.accept ballot value, Acceptor.acceptEvent ballot value⟩

/-- A visit whose reply is the response to the request. -/
def ofDemand (demand : Demand α) : Visit α (Response α) := ⟨(·.answer demand), (·.event demand)⟩

end Visit

end Synod
