import Synod.Proofs.FrameSegments

/-! Bytes that come in chunks. A server receives until the front of its stream is settled, takes one turn and goes on
with the rest. Bytes that come later change nothing of a turn that is settled, so it does not matter how a stream was
cut on its way. -/

namespace Synod

namespace Frame

private theorem front_append {stream : List UInt8} (settled : waits stream = false) (more : List UInt8) :
    front (stream ++ more) =
      match front stream with
      | .body bytes rest => .body bytes (rest ++ more)
      | other => other := by
  cases found : front stream with
  | done | cut =>
    rw [waits, found] at settled
    cases settled
  | body bytes rest =>
    obtain ⟨short, rfl⟩ := front_body_iff.1 found
    exact front_body_iff.2 ⟨short, List.append_assoc ..⟩
  | tooLarge size =>
    rcases Nat.lt_or_ge stream.length 4 with few | enough
    · rw [front_few few] at found
      cases found
    obtain ⟨a, b, c, d, rest, rfl⟩ := whole_of_length enough
    have whole := front_whole a b c d rest
    rw [found] at whole
    split at whole
    next long =>
      rw [whole]
      exact (front_whole a b c d (rest ++ more)).trans (if_pos long)
    · split at whole <;> cases whole

end Frame

namespace Connection

variable {σ α : Type} [Wire α]

def Turn.later (more : List UInt8) : Turn α → Turn α
  | .finish ending => .finish ending
  | .request asked rest => .request asked (rest ++ more)

theorem turn_append {stream : List UInt8} (settled : Frame.waits stream = false) (more : List UInt8) :
    (turn (stream ++ more) : Turn α) = (turn stream).later more := by
  unfold turn
  rw [Frame.front_append settled]
  cases Frame.front stream with
  | body bytes rest =>
    dsimp only
    cases (Frame.decodeBody (Request α) bytes) <;> rfl
  | _ => rfl

/-- Receive chunks until the front of the stream is settled. Gives the stream and the chunks that are still to come. -/
def gather (stream : List UInt8) : List (List UInt8) → List UInt8 × List (List UInt8)
  | [] => (stream, [])
  | chunk :: chunks => if Frame.waits stream then gather (stream ++ chunk) chunks else (stream, chunk :: chunks)

private theorem gather_bytes (stream : List UInt8) (chunks : List (List UInt8)) :
    (gather stream chunks).1 ++ (gather stream chunks).2.flatten = stream ++ chunks.flatten := by
  induction chunks generalizing stream with
  | nil => rfl
  | cons chunk chunks ih =>
    rw [gather]
    split
    · rw [ih, List.flatten_cons, List.append_assoc]
    · rfl

private theorem gather_settled (stream : List UInt8) (chunks : List (List UInt8)) :
    Frame.waits (gather stream chunks).1 = false ∨ (gather stream chunks).2 = [] := by
  induction chunks generalizing stream with
  | nil => exact .inr rfl
  | cons chunk chunks ih =>
    rw [gather]
    split
    · exact ih _
    next settled => exact .inl (Bool.not_eq_true _ ▸ settled)

theorem turn_gathered (stream : List UInt8) (chunks : List (List UInt8)) :
    (turn (stream ++ chunks.flatten) : Turn α) =
      (turn (gather stream chunks).1).later (gather stream chunks).2.flatten := by
  rw [← gather_bytes]
  rcases gather_settled stream chunks with settled | none
  · exact turn_append settled _
  · rw [none, List.flatten_nil, List.append_nil]
    cases (turn (gather stream chunks).1 : Turn α) with
    | finish ending => rfl
    | request request rest => rw [Turn.later, List.append_nil]

def serveChunks (handle : Request α → σ → Response α × σ) (stream : List UInt8) (chunks : List (List UInt8))
    (world : σ) : Served σ :=
  match _found : turn (gather stream chunks).1 with
  | .finish ending => ⟨[], ending, world⟩
  | .request request rest =>
    let (response, world) := handle request world
    match Frame.write response with
    | .error error => ⟨[], .error error, world⟩
    | .ok frame =>
      let served := serveChunks handle rest (gather stream chunks).2 world
      { served with written := frame ++ served.written }
termination_by stream.length + chunks.flatten.length
decreasing_by
  have shorter := turn_rest_length _found
  have bytes := congrArg List.length (gather_bytes stream chunks)
  simp only [List.length_append] at bytes
  omega

/-- However a stream is cut into chunks, a server does what it does with all its bytes at once. -/
theorem serveChunks_eq (handle : Request α → σ → Response α × σ) (stream : List UInt8) (chunks : List (List UInt8))
    (world : σ) : serveChunks handle stream chunks world = serve handle (stream ++ chunks.flatten) world := by
  fun_induction serveChunks handle stream chunks world with
  | case1 stream chunks world ending finished =>
    rw [serve_turn, turn_gathered, finished]
    rfl
  | case2 stream chunks world request rest asks response world' handled error refused =>
    rw [serve_turn, turn_gathered, asks]
    simp only [Turn.later, handled, refused]
  | case3 stream chunks world request rest asks response world' handled frame written served ih =>
    rw [serve_turn, turn_gathered, asks]
    simp only [Turn.later, handled, written, served, ih]

end Connection

end Synod
