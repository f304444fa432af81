import Synod.Connection
import Synod.Proofs.FrameRoundTrip
import Synod.Proofs.NodeRequests
import Synod.Proofs.RequestHistory

/-! A request over a connection of its own. As long as no body is too long for a frame, the client gets what the node
answers and the node is left as if it had been asked in the process. -/

namespace Synod

variable {σ α : Type}

/-- What a client takes for an answer to its request. A response of another kind is an error. -/
def Request.answered (request : Request α) (reply : Reply (Response α)) : Reply (Response α) :=
  match request with
  | prepare _ => (Response.toPromise reply).map .promise
  | accept .. => (Response.toAccepted reply).map .accepted
  | propose .. => (Response.toProposeReply reply).map .proposed

namespace Node

variable (peers : Peers σ α)

private theorem answered_answer (request : Request α) (world : Node α × σ) :
    request.answered (.ok (answer peers request world).1) = .ok (answer peers request world).1 := by
  cases request <;> rfl

/-- Acceptors' requests go to the acceptor, and the rest of the node has no part in them. -/
theorem serveAll_demands (demands : List (Demand α)) (node : Node α) (world : σ) :
    serveAll (answer peers) (demands.map Demand.request) (node, world) =
      ((node.acceptor.serve demands).1, { node with acceptor := (node.acceptor.serve demands).2 }, world) := by
  induction demands generalizing node with
  | nil => rfl
  | cons demand rest ih =>
    cases demand with
    | prepare ballot => simp [serveAll, answer, handle, Demand.request, Acceptor.serve, Acceptor.answer, ih]
    | accept ballot value => simp [serveAll, answer, handle, Demand.request, Acceptor.serve, Acceptor.answer, ih]

end Node

variable [Wire α]

namespace Frame

def Fits {μ : Type} [Wire μ] (message : μ) : Prop := (Wire.encode message).length ≤ limit

instance {μ : Type} [Wire μ] (message : μ) : Decidable (Fits message) :=
  inferInstanceAs (Decidable ((Wire.encode message).length ≤ limit))

end Frame

namespace Connection

variable {handle : Request α → σ → Response α × σ} {request : Request α} {world : σ}

private theorem serve_nil : serve handle [] world = ⟨[], .ok (), world⟩ := by
  unfold serve
  rfl

theorem exchange_fits (payload : Wire.Faithful α 0) (sent : Frame.Fits request)
    (back : Frame.Fits (handle request world).1) :
    exchange handle request world = (.ok (handle request world).1, (handle request world).2) := by
  have found := Frame.front_header_append [] sent
  have decoded : Frame.decodeBody (Request α) (Wire.encode request) = .ok request := by
    rw [Frame.decodeBody, (Request.faithful payload).decode_encode (by decide)]
  rw [List.append_nil] at found
  have response := Frame.read_written ((Response.faithful payload).decode_encode (by decide) _) back []
  rw [exchange, Frame.write_ok sent]
  simp only [serve_body found decoded, Frame.write_ok back, serve_nil, received, response]

end Connection

namespace Node

def called (peers : Peers σ α) (request : Request α) (world : Node α × σ) : Reply (Response α) × Node α × σ :=
  let (reply, world) := Connection.exchange (answer peers) request world
  (request.answered reply, world)

variable {peers : Peers σ α}

theorem called_fits (payload : Wire.Faithful α 0) {request : Request α} {world : Node α × σ}
    (sent : Frame.Fits request) (back : Frame.Fits (answer peers request world).1) :
    called peers request world = (.ok (answer peers request world).1, (answer peers request world).2) := by
  simp only [called, Connection.exchange_fits payload sent back, answered_answer]

theorem serveAll_called (payload : Wire.Faithful α 0) {requests : List (Request α)} {world : Node α × σ}
    (sent : ∀ request ∈ requests, Frame.Fits request)
    (back : ∀ response ∈ (serveAll (answer peers) requests world).1, Frame.Fits response) :
    serveAll (called peers) requests world =
      ((serveAll (answer peers) requests world).1.map .ok, (serveAll (answer peers) requests world).2) := by
  rw [← serveAll_map]
  apply serveAll_congr
  intro place request asked
  rw [serveAll_map]
  exact called_fits payload (sent request (List.mem_of_getElem? asked))
    (back _ (List.mem_of_getElem? (serveAll_reply _ _ asked)))

theorem serveAll_called_take (payload : Wire.Faithful α 0) {requests : List (Request α)} {world : Node α × σ}
    (sent : ∀ request ∈ requests, Frame.Fits request)
    (back : ∀ response ∈ (serveAll (answer peers) requests world).1, Frame.Fits response) (place : Nat) :
    (serveAll (called peers) (requests.take place) world).2 =
      (serveAll (answer peers) (requests.take place) world).2 := by
  rw [serveAll_called payload fun request early => sent request (List.mem_of_mem_take early)]
  intro response early
  rw [serveAll_take] at early
  exact back response (List.mem_of_mem_take early)

end Node

end Synod
