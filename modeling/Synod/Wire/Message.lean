import Synod.Message
import Synod.Wire.Variants

/-! The written form of every message. Names and order of the members are those of the protocol
between nodes; an absent option is written as null. -/

namespace Synod

open Wire

def Ballot.members := Members.cons (α := UInt64) "round" inferInstance (.one (α := UInt64) "node_id" inferInstance)

instance : Wire Ballot := Ballot.members.wire (fun b => (b.round, b.nodeId)) fun (round, nodeId) => ⟨round, nodeId⟩

def Accepted.members := Members.one (α := Bool) "ok" inferInstance

instance : Wire Accepted := Accepted.members.wire (·.ok) fun ok => ⟨ok⟩

def ProposeReply.members :=
  Members.cons (α := Bool) "ok" inferInstance (.one (α := Option UInt64) "state" inferInstance)

instance : Wire ProposeReply := ProposeReply.members.wire (fun r => (r.ok, r.state)) fun (ok, state) => ⟨ok, state⟩

variable {α : Type} [Wire α]

def Value.members := Members.cons (α := α) "payload" inferInstance (.one (α := UInt64) "state" inferInstance)

instance : Wire (Value α) := Value.members.wire (fun v => (v.payload, v.state)) fun (payload, state) => ⟨payload, state⟩

def Promise.members :=
  Members.cons (α := Bool) "ok" inferInstance
    (.cons (α := Option Ballot) "accepted_ballot" inferInstance
      (.one (α := Option (Value α)) "accepted_value" inferInstance))

instance : Wire (Promise α) :=
  Promise.members.wire (fun p => (p.ok, p.acceptedBallot, p.acceptedValue)) fun (ok, ballot, value) => ⟨ok, ballot, value⟩

namespace Request

def prepareMembers := Members.one (α := Ballot) "ballot" inferInstance

def acceptMembers := Members.cons (α := Ballot) "ballot" inferInstance (.one (α := Value α) "value" inferInstance)

def proposeMembers :=
  Members.cons (α := Option UInt64) "expected_state" inferInstance (.one (α := α) "payload" inferInstance)

instance : Wire (Request α) :=
  Tagged.wire
    [.ofRecord "prepare" prepareMembers prepare,
      .ofRecord "accept" acceptMembers fun (ballot, value) => accept ballot value,
      .ofRecord "propose" proposeMembers fun (expected, payload) => propose expected payload]
    fun
      | prepare ballot => taggedJson "prepare" prepareMembers ballot
      | accept ballot value => taggedJson "accept" acceptMembers (ballot, value)
      | propose expected payload => taggedJson "propose" proposeMembers (expected, payload)

end Request

namespace Response

instance : Wire (Response α) :=
  Tagged.wire
    [.ofRecord "promise" Promise.members fun (ok, ballot, value) => promise ⟨ok, ballot, value⟩,
      .ofRecord "accepted" Accepted.members fun ok => accepted ⟨ok⟩,
      .ofRecord "proposed" ProposeReply.members fun (ok, state) => proposed ⟨ok, state⟩]
    fun
      | promise p => taggedJson "promise" Promise.members (p.ok, p.acceptedBallot, p.acceptedValue)
      | accepted a => taggedJson "accepted" Accepted.members a.ok
      | proposed r => taggedJson "proposed" ProposeReply.members (r.ok, r.state)

end Response

end Synod
