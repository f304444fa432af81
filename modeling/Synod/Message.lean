import Synod.Ballot
import Synod.Error
import Synod.Value

/-! The messages between proposers, acceptors and clients. A promise has room for a ballot and a
value separately, as its written form does; only a promise that carries both reports a proposal. -/

namespace Synod

/-- A value together with the ballot at which it was accepted. -/
structure Proposal (α : Type) where
  ballot : Ballot
  value : Value α
deriving DecidableEq, Repr

structure Promise (α : Type) where
  ok : Bool
  acceptedBallot : Option Ballot
  acceptedValue : Option (Value α)
deriving DecidableEq, Repr

namespace Promise

variable {α : Type}

def rejected : Promise α := ⟨false, none, none⟩

def granted (accepted : Option (Proposal α)) : Promise α :=
  ⟨true, accepted.map (·.ballot), accepted.map (·.value)⟩

/-- The proposal that a promise reports; a half that stands alone reports nothing. -/
def accepted? (p : Promise α) : Option (Proposal α) :=
  match p.acceptedBallot, p.acceptedValue with
  | some ballot, some value => some ⟨ballot, value⟩
  | _, _ => none

theorem accepted?_granted (accepted : Option (Proposal α)) : (granted accepted).accepted? = accepted := by
  cases accepted <;> rfl

end Promise

structure Accepted where
  ok : Bool
deriving DecidableEq, Repr

/-- Reply to a client: the committed state, or else the best known state of the register. -/
structure ProposeReply where
  ok : Bool
  state : Option UInt64
deriving DecidableEq, Repr

/-- The reply that tells a client how its round ended. -/
def ProposeReply.ofResult : Except ProposeError UInt64 → ProposeReply
  | .ok state => ⟨true, some state⟩
  | .error error => ⟨false, error.currentState⟩

inductive Request (α : Type) where
  | prepare (ballot : Ballot)
  | accept (ballot : Ballot) (value : Value α)
  | propose (expected : Option UInt64) (payload : α)
deriving DecidableEq, Repr

/-- A request of one of the two kinds that acceptors answer. -/
inductive Demand (α : Type) where
  | prepare (ballot : Ballot)
  | accept (ballot : Ballot) (value : Value α)
deriving DecidableEq, Repr

def Demand.request {α : Type} : Demand α → Request α
  | prepare ballot => .prepare ballot
  | accept ballot value => .accept ballot value

inductive Response (α : Type) where
  | promise (promise : Promise α)
  | accepted (accepted : Accepted)
  | proposed (reply : ProposeReply)
deriving DecidableEq, Repr

end Synod
