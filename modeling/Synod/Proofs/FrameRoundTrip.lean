import Synod.Frame
import Synod.Proofs.MessageSize
import Synod.Proofs.WireRoundTrip

/-! No message is lost between two ends of a stream. Whatever is written is read again in its order, and a message
that fits no frame leaves no trace. -/

namespace Synod

open Wire

theorem Ballot.faithful : Faithful Ballot 1 :=
  have members : members.Faithful 0 := ⟨faithful_uint64, by decide, faithful_uint64⟩
  members.wire (fun b : Ballot => (b.round, b.nodeId)) (fun record => ⟨record.1, record.2⟩) fun _ => rfl

theorem Accepted.faithful_members : members.Faithful 0 := faithful_bool

theorem Accepted.faithful : Faithful Accepted 1 := faithful_members.wire Accepted.ok (fun ok => ⟨ok⟩) fun _ => rfl

theorem faithful_state : Faithful (Option UInt64) 0 := faithful_uint64.option nofun

theorem ProposeReply.faithful_members : members.Faithful 0 := ⟨faithful_bool, by decide, faithful_state⟩

theorem ProposeReply.faithful : Faithful ProposeReply 1 :=
  faithful_members.wire (fun r : ProposeReply => (r.ok, r.state)) (fun record => ⟨record.1, record.2⟩) fun _ => rfl

section

variable {α : Type} [Wire α] (payload : Faithful α 0)

include payload

theorem Value.faithful : Faithful (Value α) 1 :=
  have members : (members (α := α)).Faithful 0 := ⟨payload, (by decide : "payload" ∉ ["state"]), faithful_uint64⟩
  members.wire (fun v : Value α => (v.payload, v.state)) (fun record => ⟨record.1, record.2⟩) fun _ => rfl

theorem Promise.faithful_members : (members (α := α)).Faithful 1 :=
  ⟨faithful_bool.mono (by decide), (by decide : "ok" ∉ ["accepted_ballot", "accepted_value"]),
    Ballot.faithful.option nofun, (by decide : "accepted_ballot" ∉ ["accepted_value"]),
    (Value.faithful payload).option nofun⟩

theorem Promise.faithful : Faithful (Promise α) 2 :=
  (faithful_members payload).wire (fun p : Promise α => (p.ok, p.acceptedBallot, p.acceptedValue))
    (fun record => ⟨record.1, record.2.1, record.2.2⟩) fun _ => rfl

theorem Request.faithful : Faithful (Request α) 2 := by
  have prepare : prepareMembers.Faithful 1 := Ballot.faithful
  have accept : (acceptMembers (α := α)).Faithful 1 :=
    ⟨Ballot.faithful, (by decide : "ballot" ∉ ["value"]), Value.faithful payload⟩
  have propose : (proposeMembers (α := α)).Faithful 1 :=
    ⟨faithful_state.mono (by decide), (by decide : "expected_state" ∉ ["payload"]), payload.mono (by decide)⟩
  refine Tagged.faithful fun request => ?_
  cases request with
  | prepare => exact Tagged.told rfl prepare (by decide) rfl rfl
  | accept => exact Tagged.told rfl accept (by decide : tagName ∉ ["ballot", "value"]) rfl rfl
  | propose => exact Tagged.told rfl propose (by decide : tagName ∉ ["expected_state", "payload"]) rfl rfl

theorem Response.faithful : Faithful (Response α) 2 := by
  have accepted : Accepted.members.Faithful 1 := faithful_bool.mono (by decide)
  have proposed : ProposeReply.members.Faithful 1 :=
    ⟨faithful_bool.mono (by decide), by decide, faithful_state.mono (by decide)⟩
  refine Tagged.faithful fun response => ?_
  cases response with
  | promise =>
    exact Tagged.told rfl (Promise.faithful_members payload)
      (by decide : tagName ∉ ["ok", "accepted_ballot", "accepted_value"]) rfl rfl
  | accepted => exact Tagged.told rfl accepted (by decide) rfl rfl
  | proposed => exact Tagged.told rfl proposed (by decide) rfl rfl

end

namespace Frame

section

variable {μ : Type} [Wire μ]

/-- What stands on a stream after some messages were sent on it. A message that is refused puts nothing there. -/
def stream (messages : List μ) : List UInt8 :=
  messages.flatMap fun message =>
    match write message with
    | .ok bytes => bytes
    | .error _ => []

def taken (messages : List μ) : List μ := messages.filter fun message => (write message).isOk

def receive (μ : Type) [Wire μ] : Nat → List UInt8 → List (Except TransportError (Option μ))
  | 0, _ => []
  | count + 1, stream => (read μ stream).1 :: receive μ count (read μ stream).2

/-- Every message either is refused because its text is too long or crosses a stream unchanged, and the messages that
cross it come in their order and before its end. -/
def Lossless (μ : Type) [Wire μ] : Prop :=
  ∀ messages : List μ,
    (∀ message ∈ messages, write message =
      if 2 ^ 20 < (Wire.encode message).length then .error (.frameTooLarge (Wire.encode message).length (2 ^ 20))
      else .ok (header (Wire.encode message).length ++ Wire.encode message)) ∧
    receive μ ((taken messages).length + 1) (stream messages) = (taken messages).map (.ok ∘ some) ++ [.ok none]

theorem read_written {message : μ} (decoded : Wire.decode μ (Wire.encode message) = .ok message)
    (short : (Wire.encode message).length ≤ limit) (rest : List UInt8) :
    read μ (header (Wire.encode message).length ++ Wire.encode message ++ rest) = (.ok (some message), rest) := by
  have body : decodeBody μ (Wire.encode message) = .ok message := by rw [decodeBody, decoded]
  rw [read, front_header_append rest short]
  exact congrArg (fun result => (result.map some, rest)) body

private theorem lossless {room : Nat} (faithful : Wire.Faithful μ room) (shallow : room ≤ Wire.depthLimit) :
    Lossless μ := by
  intro messages
  refine ⟨fun _ _ => rfl, ?_⟩
  induction messages with
  | nil => rfl
  | cons message rest ih =>
    by_cases short : (Wire.encode message).length ≤ limit
    · have written := write_ok short
      have onStream : stream (message :: rest) =
          header (Wire.encode message).length ++ Wire.encode message ++ stream rest := by
        simp [stream, written]
      have isTaken : taken (message :: rest) = message :: taken rest := by simp [taken, written, Except.isOk, Except.toBool]
      rw [onStream, isTaken, List.length_cons, receive, read_written (faithful.decode_encode shallow message) short, ih]
      rfl
    · have refused := write_error (Nat.not_le.1 short)
      have same : stream (message :: rest) = stream rest := by simp [stream, refused]
      have same' : taken (message :: rest) = taken rest := by simp [taken, refused, Except.isOk, Except.toBool]
      rw [same, same', ih]

end

def Carries (α : Type) [Wire α] : Prop :=
  Lossless (Request α) ∧ Lossless (Response α) ∧ Lossless (Promise α) ∧ Lossless (Value α)

theorem carries {α : Type} [Wire α] (payload : Wire.Faithful α 0) : Carries α :=
  ⟨lossless (Request.faithful payload) (by decide), lossless (Response.faithful payload) (by decide),
    lossless (Promise.faithful payload) (by decide), lossless (Value.faithful payload) (by decide)⟩

/-- No message is lost, whatever its type and whatever payload it carries. -/
theorem messages_lossless :
    (Lossless Ballot ∧ Lossless Accepted ∧ Lossless ProposeReply) ∧
      Carries String ∧ Carries UInt32 ∧ Carries (Option String) :=
  ⟨⟨lossless Ballot.faithful (by decide), lossless Accepted.faithful (by decide),
      lossless ProposeReply.faithful (by decide)⟩,
    carries Wire.faithful_string, carries Wire.faithful_uint32, carries (Wire.faithful_string.option nofun)⟩

end Frame

end Synod
