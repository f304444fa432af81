import Synod.Connection
import Synod.Node
import Synod.Proofs.JsonText
import Synod.Proofs.RecordSteps

/-! How long messages are. A promise that reports a proposal holds what the accept request held, under
longer names, and both must fit the same frame. So there are proposals that can be sent to an acceptor
and not reported by it. -/

namespace Synod

namespace Frame

variable {μ : Type} [Wire μ] {message : μ}

theorem write_ok (short : (Wire.encode message).length ≤ limit) :
    write message = .ok (header (Wire.encode message).length ++ Wire.encode message) :=
  if_neg (Nat.not_lt.2 short)

theorem write_error (long : limit < (Wire.encode message).length) :
    write message = .error (.frameTooLarge (Wire.encode message).length limit) :=
  if_pos long

theorem write_ok_iff : (∃ frame, write message = .ok frame) ↔ (Wire.encode message).length ≤ limit := by
  constructor
  · rintro ⟨frame, written⟩
    by_contra long
    rw [write_error (Nat.not_le.1 long)] at written
    cases written
  · intro short
    exact ⟨_, write_ok short⟩

end Frame

section

variable {α : Type} [Wire α]

private theorem Request.encode_accept_length (ballot : Ballot) (value : Value α) :
    (Wire.encode (Request.accept ballot value)).length =
      (Wire.encode ballot).length + (Wire.encode value).length + 36 := by
  have spelled : Wire.toJson (Request.accept ballot value) =
      .object [("type", .string "accept"), ("ballot", Wire.toJson ballot), ("value", Wire.toJson value)] := rfl
  have tag : (Json.memberBytes ("type", .string "accept")).length = 15 := by decide
  have names : (Json.quoted "ballot").length = 8 ∧ (Json.quoted "value").length = 7 := by decide
  simp only [Wire.encode, spelled, Json.bytes_object_length, Json.memberBytes_length _ (Wire.toJson _), tag, names,
    List.flatMap_cons, List.flatMap_nil, List.length_append, List.length_cons, List.length_nil]
  omega

private theorem Response.encode_report_length (proposal : Proposal α) :
    (Wire.encode (Response.promise (.granted (some proposal)))).length =
      (Wire.encode proposal.ballot).length + (Wire.encode proposal.value).length + 65 := by
  have spelled : Wire.toJson (Response.promise (.granted (some proposal))) =
      .object [("type", .string "promise"), ("ok", .bool true), ("accepted_ballot", Wire.toJson proposal.ballot),
        ("accepted_value", Wire.toJson proposal.value)] := rfl
  have tag : (Json.memberBytes ("type", .string "promise")).length = 16 := by decide
  have granted : (Json.memberBytes ("ok", .bool true)).length = 9 := by decide
  have names : (Json.quoted "accepted_ballot").length = 17 ∧ (Json.quoted "accepted_value").length = 16 := by decide
  simp only [Wire.encode, spelled, Json.bytes_object_length, Json.memberBytes_length _ (Wire.toJson _), tag, granted,
    names, List.flatMap_cons, List.flatMap_nil, List.length_append, List.length_cons, List.length_nil]
  omega

def Proposal.size (proposal : Proposal α) : Nat := (Wire.encode (Request.accept proposal.ballot proposal.value)).length

/-- Both messages hold the ballot and the value, so the report is longer by its names and its flag alone. -/
theorem Proposal.report_length (proposal : Proposal α) :
    (Wire.encode (Response.promise (.granted (some proposal)))).length = proposal.size + 29 := by
  rw [Response.encode_report_length, size, Request.encode_accept_length]

theorem Proposal.report_refused (proposal : Proposal α) (long : Frame.limit < proposal.size + 29) :
    Frame.write (Response.promise (.granted (some proposal))) =
      .error (.frameTooLarge (proposal.size + 29) Frame.limit) := by
  rw [← report_length] at long ⊢
  exact Frame.write_error long

/-- A proposal that an accept request can bring is reported over the wire unless its request is among the
29 longest sizes that fit a frame. There the report is refused, whoever asks for it. -/
theorem Proposal.report_written_iff (proposal : Proposal α) :
    (∀ (record : Record α) (higher : Ballot), record.accepted = some proposal → record.promised < higher →
        (record.prepare higher).1 = .granted (some proposal)) ∧
      (((∃ frame, Frame.write (Request.accept proposal.ballot proposal.value) = .ok frame) →
          ∃ frame, Frame.write (Response.promise (.granted (some proposal))) = .ok frame) ↔
        ¬ (Frame.limit < proposal.size + 29 ∧ proposal.size ≤ Frame.limit)) ∧
      (Frame.limit < proposal.size + 29 →
        Frame.write (Response.promise (.granted (some proposal))) =
          .error (.frameTooLarge (proposal.size + 29) Frame.limit)) := by
  refine ⟨?_, ?_, ?_⟩
  · intro record higher held above
    rw [Record.prepare_above above, held]
  · rw [Frame.write_ok_iff, Frame.write_ok_iff, proposal.report_length, ← size]
    omega
  · exact proposal.report_refused

variable {σ : Type}

/-- A server takes one turn after another. -/
theorem Connection.serve_turn (handle : Request α → σ → Response α × σ) (stream : List UInt8) (world : σ) :
    serve handle stream world =
      match turn stream with
      | .finish ending => ⟨[], ending, world⟩
      | .request request rest =>
        match Frame.write (handle request world).1 with
        | .error error => ⟨[], .error error, (handle request world).2⟩
        | .ok frame =>
          { serve handle rest (handle request world).2 with
            written := frame ++ (serve handle rest (handle request world).2).written } := by
  conv => lhs; unfold serve
  split
  next finished => rw [finished]
  next request rest asks => cases written : Frame.write (handle request world).1 <;> simp only [asks, written]

theorem Connection.serve_eq (handle : Request α → σ → Response α × σ) (stream : List UInt8) (world : σ) :
    serve handle stream world =
      match Frame.front stream with
      | .done => ⟨[], .ok (), world⟩
      | .tooLarge size => ⟨[], .error (.frameTooLarge size Frame.limit), world⟩
      | .cut => ⟨[], .error Frame.endedEarly, world⟩
      | .body bytes rest =>
        match Frame.decodeBody (Request α) bytes with
        | .error error => ⟨[], .error error, world⟩
        | .ok request =>
          match Frame.write (handle request world).1 with
          | .error error => ⟨[], .error error, (handle request world).2⟩
          | .ok frame =>
            { serve handle rest (handle request world).2 with
              written := frame ++ (serve handle rest (handle request world).2).written } := by
  rw [serve_turn, turn]
  cases Frame.front stream with
  | body bytes rest =>
    dsimp only
    cases Frame.decodeBody (Request α) bytes <;> rfl
  | _ => rfl

/-- The first frame of a stream is answered before the next one is looked at. -/
theorem Connection.serve_body {handle : Request α → σ → Response α × σ} {stream bytes rest : List UInt8}
    {request : Request α} {world : σ} (found : Frame.front stream = .body bytes rest)
    (decoded : Frame.decodeBody (Request α) bytes = .ok request) :
    serve handle stream world =
      match Frame.write (handle request world).1 with
      | .error error => ⟨[], .error error, (handle request world).2⟩
      | .ok frame =>
        { serve handle rest (handle request world).2 with
          written := frame ++ (serve handle rest (handle request world).2).written } := by
  rw [serve_eq, found]
  simp only [decoded]

/-- A response that fits no frame is the last thing a server does on a connection. -/
theorem Connection.serve_refused {handle : Request α → σ → Response α × σ} {stream bytes rest : List UInt8}
    {request : Request α} {world : σ} {error : TransportError} (found : Frame.front stream = .body bytes rest)
    (decoded : Frame.decodeBody (Request α) bytes = .ok request)
    (refused : Frame.write (handle request world).1 = .error error) :
    serve handle stream world = ⟨[], .error error, (handle request world).2⟩ := by
  rw [serve_body found decoded, refused]

def Node.answer (peers : Peers σ α) (request : Request α) (world : Node α × σ) : Response α × Node α × σ :=
  let handled := world.1.handle peers request world.2
  (handled.response, handled.node, handled.world)

/-- A node that holds such a proposal promises the ballot it is asked for, but it writes nothing and closes. -/
theorem Node.report_closes {node : Node α} {peers : Peers σ α} {proposal : Proposal α} {higher : Ballot}
    {stream bytes rest : List UInt8} (world : σ) (held : node.acceptor.record.accepted = some proposal)
    (above : node.acceptor.record.promised < higher) (long : Frame.limit < proposal.size + 29)
    (found : Frame.front stream = .body bytes rest)
    (decoded : Frame.decodeBody (Request α) bytes = .ok (.prepare higher)) :
    Connection.serve (Node.answer peers) stream (node, world) =
      ⟨[], .error (.frameTooLarge (proposal.size + 29) Frame.limit),
        { node with acceptor.record.promised := higher }, world⟩ := by
  have answered : Node.answer peers (.prepare higher) (node, world) =
      (.promise (.granted (some proposal)), { node with acceptor.record.promised := higher }, world) := by
    simp only [Node.answer, Node.handle, Acceptor.prepare, Record.prepare_above above, held]
  have refused : Frame.write (Node.answer peers (.prepare higher) (node, world)).1 =
      .error (.frameTooLarge (proposal.size + 29) Frame.limit) := by
    rw [answered]
    exact proposal.report_refused long
  rw [Connection.serve_refused found decoded refused, answered]

end

private def letters (count : Nat) : Proposal String := ⟨⟨1, 1⟩, ⟨String.ofList (List.replicate count 'a'), 0⟩⟩

private theorem bytesOf_letters (count : Nat) :
    Json.bytesOf (String.ofList (List.replicate count 'a')) = List.replicate count 97 := by
  have letter : String.utf8EncodeChar 'a' = [97] := by decide
  rw [Json.bytesOf_ofList, List.flatMap_replicate, letter, List.flatten_replicate_singleton]

private theorem letters_size (count : Nat) : (letters count).size = count + 83 := by
  have plain : ∀ byte ∈ List.replicate count (97 : UInt8), Json.escape byte = [byte] := by
    intro byte letter
    rw [List.eq_of_mem_replicate letter]
    decide
  have payload : (Json.quoted (String.ofList (List.replicate count 'a'))).length = count + 2 := by
    rw [Json.quoted_length (by rwa [bytesOf_letters]), bytesOf_letters, List.length_replicate]
  have spelled : Wire.toJson (letters count).value =
      .object [("payload", .string (String.ofList (List.replicate count 'a'))), ("state", .number (.whole 0))] := rfl
  have name : (Json.quoted "payload").length = 9 := by decide
  have state : (Json.memberBytes ("state", .number (.whole 0))).length = 9 := by decide
  have value : (Wire.encode (letters count).value).length = count + 24 := by
    simp only [Wire.encode, spelled, Json.bytes_object_length, state, Json.memberBytes_length "payload",
      Json.bytes_string, payload, name, List.flatMap_cons, List.flatMap_nil, List.length_append, List.length_cons,
      List.length_nil]
    omega
  have ballot : (Wire.encode (letters count).ballot).length = 23 := by
    change (Wire.encode (Ballot.mk 1 1)).length = 23
    decide
  rw [Proposal.size, Request.encode_accept_length, ballot, value]
  omega

private theorem letters_refused {count : Nat} (short : count + 83 ≤ Frame.limit) (long : Frame.limit < count + 112) :
    Frame.write (Request.accept (letters count).ballot (letters count).value) =
        .ok (Frame.header (count + 83) ++ Wire.encode (Request.accept (letters count).ballot (letters count).value)) ∧
      Frame.write (Response.promise (Record.prepare ⟨2, 1⟩ ⟨⟨1, 1⟩, some (letters count)⟩).1) =
        .error (.frameTooLarge (count + 112) Frame.limit) := by
  have size := letters_size count
  constructor
  · have written := Frame.write_ok (Nat.le_trans (Nat.le_of_eq size) short)
    rwa [← Proposal.size, size] at written
  · have above : (⟨1, 1⟩ : Ballot) < ⟨2, 1⟩ := by decide
    have refused := (letters count).report_refused (by rwa [size])
    rw [Record.prepare_above above]
    rwa [size] at refused

/-- The accept request fills a frame to its last byte, and the promise of the acceptor that granted it is
29 bytes too long. -/
theorem full_frame_unreported :
    Frame.write (Request.accept (letters 1048493).ballot (letters 1048493).value) =
        .ok (Frame.header 1048576 ++ Wire.encode (Request.accept (letters 1048493).ballot (letters 1048493).value)) ∧
      Frame.write (Response.promise (Record.prepare ⟨2, 1⟩ ⟨⟨1, 1⟩, some (letters 1048493)⟩).1) =
        .error (.frameTooLarge 1048605 1048576) :=
  letters_refused (by decide) (by decide)

end Synod
