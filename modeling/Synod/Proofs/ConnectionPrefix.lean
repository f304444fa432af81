import Mathlib.Data.List.Basic
import Mathlib.Data.List.TakeDrop
import Synod.Proofs.ConnectionExchange
import Synod.Proofs.FrameSegments

/-! What a server makes of any bytes at all. It handles the requests before the first frame that is none, and stops
before that if a response fits no frame. What a client has sent behind the place where it stopped has no effect. -/

namespace Synod

section

variable {ι ρ S : Type}

private theorem serveAll_foldl (step : ι → S → ρ × S) (requests : List ι) (s : S) :
    (serveAll step requests s).2 = requests.foldl (fun s request => (step request s).2) s := by
  induction requests generalizing s with
  | nil => rfl
  | cons request rest ih => exact ih (step request s).2

/-- Either all items pass, or the first one that does not comes right behind those that are taken. -/
theorem takeWhile_stops (test : ι → Bool) (items : List ι) :
    (items.takeWhile test = items ∧ ∀ item ∈ items, test item = true) ∨
      ∃ item, items[(items.takeWhile test).length]? = some item ∧ test item = false ∧
        items.take (items.takeWhile test).length = items.takeWhile test := by
  induction items with
  | nil => exact .inl ⟨rfl, nofun⟩
  | cons first items ih =>
    cases passed : test first with
    | false => exact .inr ⟨first, by simp [List.takeWhile, passed]⟩
    | true =>
      rw [List.takeWhile_cons_of_pos passed]
      rcases ih with ⟨all, passes⟩ | ⟨item, found, fails, taken⟩
      · rw [all]
        exact .inl ⟨rfl, List.forall_mem_cons.2 ⟨passed, passes⟩⟩
      · exact .inr ⟨item, found, fails, congrArg (first :: ·) taken⟩

end

namespace Connection

variable {σ α : Type} [Wire α]

/-- A stream that begins with the frames of these bodies, each of them one of these requests. -/
structure Begins (stream : List UInt8) (bodies : List (List UInt8)) (requests : List (Request α))
    (rest : List UInt8) : Prop where
  split : stream = bodies.flatMap Frame.framed ++ rest
  short : ∀ body ∈ bodies, body.length ≤ Frame.limit
  decoded : bodies.map (Wire.decode (Request α)) = requests.map .ok

/-- Where a server stops: at the end of the stream, or at a whole frame whose body is no request. -/
inductive Stops (α : Type) [Wire α] : List UInt8 → Except TransportError Unit → Prop where
  | ended {rest : List UInt8} {ending : Except TransportError Unit} (ends : Frame.Ends rest ending) :
      Stops α rest ending
  | garbled {body later : List UInt8} {fault : Fault} (short : body.length ≤ Frame.limit)
      (refused : Wire.decode (Request α) body = .error fault) :
      Stops α (Frame.framed body ++ later) (.error (.codec fault fault.text))

section

variable {stream rest body : List UInt8} {bodies : List (List UInt8)} {requests : List (Request α)}
  {request : Request α}

private theorem begins_cons (short : body.length ≤ Frame.limit) (decoded : Wire.decode (Request α) body = .ok request)
    (begins : Begins stream bodies requests rest) :
    Begins (Frame.framed body ++ stream) (body :: bodies) (request :: requests) rest := by
  refine ⟨?_, ?_, ?_⟩
  · rw [begins.split, List.flatMap_cons, List.append_assoc]
  · intro other member
    rcases List.mem_cons.1 member with rfl | member
    · exact short
    · exact begins.short other member
  · rw [List.map_cons, List.map_cons, decoded, begins.decoded]

private theorem Begins.uncons (begins : Begins stream (body :: bodies) requests rest) :
    ∃ request requests', requests = request :: requests' ∧ body.length ≤ Frame.limit ∧
      Wire.decode (Request α) body = .ok request ∧
      stream = Frame.framed body ++ (bodies.flatMap Frame.framed ++ rest) ∧
      Begins (bodies.flatMap Frame.framed ++ rest) bodies requests' rest := by
  cases requests with
  | nil => cases begins.decoded
  | cons request requests' =>
    obtain ⟨decoded, others⟩ := List.cons.inj begins.decoded
    refine ⟨request, requests', rfl, begins.short body (by simp), decoded, ?_, rfl, ?_, others⟩
    · rw [begins.split, List.flatMap_cons, List.append_assoc]
    · exact fun other member => begins.short other (List.mem_cons_of_mem _ member)

/-- Every stream is some requests and a place to stop. -/
theorem begins_exists (α : Type) [Wire α] (stream : List UInt8) :
    ∃ bodies, ∃ requests : List (Request α), ∃ rest ending,
      Begins stream bodies requests rest ∧ Stops α rest ending := by
  induction size : stream.length using Nat.strongRecOn generalizing stream with
  | ind size' ih =>
    rcases Frame.opens_or_ends stream with ⟨body, rest, short, rfl⟩ | ⟨ending, ends⟩
    · cases decoded : Wire.decode (Request α) body with
      | error fault => exact ⟨[], [], _, _, ⟨rfl, nofun, rfl⟩, .garbled short decoded⟩
      | ok request =>
        have shorter : rest.length < size' := by
          rw [List.length_append, Frame.framed_length] at size
          omega
        obtain ⟨bodies, requests, rest', ending, begins, stops⟩ := ih _ shorter rest rfl
        exact ⟨body :: bodies, request :: requests, rest', ending, begins_cons short decoded begins, stops⟩
    · exact ⟨[], [], stream, ending, ⟨rfl, nofun, rfl⟩, .ended ends⟩

theorem Stops.no_request {ending : Except TransportError Unit} (stops : Stops α (Frame.framed body ++ rest) ending)
    (short : body.length ≤ Frame.limit) (decoded : Wire.decode (Request α) body = .ok request) : False := by
  have found : Frame.front (Frame.framed body ++ rest) = .body body rest := Frame.front_body_iff.2 ⟨short, rfl⟩
  generalize Frame.framed body ++ rest = stream at stops found
  cases stops with
  | ended ends =>
    have ended := Frame.ends_iff.1 ends
    rw [found] at ended
    cases ended
  | garbled short' refused =>
    cases found.symm.trans (Frame.front_body_iff.2 ⟨short', rfl⟩)
    cases decoded.symm.trans refused

/-- No other requests that a stream begins with go beyond the place to stop. -/
theorem Begins.longest {bodies' : List (List UInt8)} {requests' : List (Request α)} {rest' : List UInt8}
    {ending : Except TransportError Unit} (begins : Begins stream bodies requests rest) (stops : Stops α rest ending)
    (begins' : Begins stream bodies' requests' rest') : bodies' <+: bodies := by
  induction bodies' generalizing stream bodies requests requests' with
  | nil => exact List.nil_prefix
  | cons body' bodies' ih =>
    obtain ⟨request', _, rfl, short', decoded', spelled', others'⟩ := begins'.uncons
    cases bodies with
    | nil =>
      have spelled : stream = rest := begins.split
      rw [← spelled, spelled'] at stops
      exact (stops.no_request short' decoded').elim
    | cons body bodies =>
      obtain ⟨request, _, rfl, short, decoded, spelled, others⟩ := begins.uncons
      have found := Frame.front_body_iff.2 ⟨short, spelled⟩
      have found' := Frame.front_body_iff.2 ⟨short', spelled'⟩
      obtain ⟨same, behind⟩ := Frame.Front.body.inj (found.symm.trans found')
      rw [← behind] at others'
      subst same
      exact List.cons_prefix_cons.2 ⟨rfl, ih others others'⟩

private theorem Stops.clean_iff {ending : Except TransportError Unit} (stops : Stops α rest ending) :
    ending = .ok () ↔ rest.length < 4 := by
  cases stops with
  | ended ends =>
    constructor
    · rintro rfl
      cases ends
      assumption
    · intro few
      exact ends.unique (.between few)
  | garbled =>
    refine ⟨nofun, fun few => ?_⟩
    rw [List.length_append, Frame.framed_length] at few
    omega

theorem Begins.take (begins : Begins stream bodies requests rest) (place : Nat) (later : List UInt8) :
    Begins ((bodies.take place).flatMap Frame.framed ++ later) (bodies.take place) (requests.take place) later := by
  refine ⟨rfl, fun body member => begins.short body (List.mem_of_mem_take member), ?_⟩
  rw [List.map_take, begins.decoded, List.map_take]

theorem Begins.framed (begins : Begins stream bodies requests rest) {place : Nat}
    (asked : requests[place]? = some request) :
    ∃ body, bodies[place]? = some body ∧ body.length ≤ Frame.limit ∧ Wire.decode (Request α) body = .ok request := by
  have decoded := congrArg (·[place]?) begins.decoded
  simp only [List.getElem?_map, asked, Option.map_some] at decoded
  obtain ⟨body, found, decoded⟩ := Option.map_eq_some_iff.1 decoded
  exact ⟨body, found, begins.short body (List.mem_of_getElem? found), decoded⟩

end

section

variable {stream rest : List UInt8} {bodies : List (List UInt8)} {requests : List (Request α)}
  {handle : Request α → σ → Response α × σ} {world : σ}

def frames (responses : List (Response α)) : List UInt8 :=
  responses.flatMap fun response => Frame.framed (Wire.encode response)

theorem serve_stops {ending : Except TransportError Unit} (stops : Stops α rest ending) :
    serve handle rest world = ⟨[], ending, world⟩ := by
  rw [serve_eq]
  cases stops with
  | ended ends =>
    have ended := Frame.ends_iff.1 ends
    cases found : Frame.front rest with
    | done | tooLarge size | cut => rw [found] at ended; cases ended; rfl
    | body bytes rest => rw [found] at ended; cases ended
  | garbled short refused =>
    rw [Frame.front_body_iff.2 ⟨short, rfl⟩]
    simp only [Frame.decodeBody, refused]

/-- As long as the responses fit their frames, requests are served one after another. -/
theorem Begins.serve_fit (begins : Begins stream bodies requests rest)
    (fits : ∀ response ∈ (serveAll handle requests world).1, Frame.Fits response) : serve handle stream world =
      { serve handle rest (serveAll handle requests world).2 with
        written := frames (serveAll handle requests world).1 ++
          (serve handle rest (serveAll handle requests world).2).written } := by
  induction bodies generalizing stream requests world with
  | nil =>
    cases requests with
    | nil => rw [show stream = rest from begins.split]; rfl
    | cons request requests => cases begins.decoded
  | cons body bodies ih =>
    obtain ⟨request, requests, rfl, short, decoded, split, others⟩ := begins.uncons
    have found := Frame.front_body_iff.2 ⟨short, split⟩
    have read : Frame.decodeBody (Request α) body = .ok request := by rw [Frame.decodeBody, decoded]
    have first : Frame.Fits (handle request world).1 := fits _ (List.mem_cons_self ..)
    have served := ih others fun response member => fits response (List.mem_cons_of_mem _ member)
    rw [serve_body found read, Frame.write_ok first, served]
    simp only [serveAll, frames, List.flatMap_cons, List.append_assoc, Frame.framed]

theorem Begins.serve_all {ending : Except TransportError Unit} (begins : Begins stream bodies requests rest)
    (stops : Stops α rest ending) (fits : ∀ response ∈ (serveAll handle requests world).1, Frame.Fits response) :
    serve handle stream world =
      ⟨frames (serveAll handle requests world).1, ending, (serveAll handle requests world).2⟩ := by
  rw [begins.serve_fit fits, serve_stops stops, List.append_nil]

/-- The first response that fits no frame is the last thing a server comes to, whatever follows on the stream. -/
theorem Begins.serve_unfit (begins : Begins stream bodies requests rest) {place : Nat} {response : Response α}
    (next : (serveAll handle requests world).1[place]? = some response) (unfit : ¬ Frame.Fits response)
    (fits : ∀ earlier ∈ (serveAll handle requests world).1.take place, Frame.Fits earlier) (later : List UInt8) :
    serve handle ((bodies.take (place + 1)).flatMap Frame.framed ++ later) world =
      ⟨frames ((serveAll handle requests world).1.take place),
        .error (.frameTooLarge (Wire.encode response).length Frame.limit),
        (serveAll handle (requests.take (place + 1)) world).2⟩ := by
  obtain ⟨request, asked⟩ : ∃ request, requests[place]? = some request := by
    have inside := (List.getElem?_eq_some_iff.1 next).1
    rw [serveAll_length] at inside
    exact ⟨_, List.getElem?_eq_getElem inside⟩
  obtain ⟨body, found, short, decoded⟩ := begins.framed asked
  have before := begins.take place (Frame.framed body ++ later)
  have front : Frame.front (Frame.framed body ++ later) = .body body later := Frame.front_body_iff.2 ⟨short, rfl⟩
  have read : Frame.decodeBody (Request α) body = .ok request := by rw [Frame.decodeBody, decoded]
  have answered := serveAll_reply handle world asked
  rw [next] at answered
  cases answered
  rw [← serveAll_take] at fits
  have closed := serve_refused front read (Frame.write_error (Nat.not_le.1 unfit))
  have spelled : (bodies.take (place + 1)).flatMap Frame.framed ++ later =
      (bodies.take place).flatMap Frame.framed ++ (Frame.framed body ++ later) := by
    rw [List.take_add_one, found, List.flatMap_append, List.append_assoc, Option.toList_some, List.flatMap_singleton]
  rw [spelled, before.serve_fit fits, closed, List.append_nil, serveAll_take, serveAll_next handle world asked]

end

/-- On any stream a node's server handles the requests at its beginning, as many as there are before something else or
up to the first response that fits no frame. It writes the responses before that, ends with the error that stopped it,
and what stands behind the place where it stopped makes no difference. -/
theorem serves_longest_prefix (peers : Peers σ α) (node : Node α) (world : σ) (stream : List UInt8) :
    ∃ bodies, ∃ requests : List (Request α), ∃ rest ending,
      Begins stream bodies requests rest ∧ Stops α rest ending ∧
      (∀ bodies' (requests' : List (Request α)) rest', Begins stream bodies' requests' rest' → bodies' <+: bodies) ∧
      let responses := (serveAll (Node.answer peers) requests (node, world)).1
      let sent := responses.takeWhile fun response => Frame.Fits response
      let served := serve (Node.answer peers) stream (node, world)
      served.world = (requests.take (sent.length + 1)).foldl
          (fun world request => (Node.answer peers request world).2) (node, world) ∧
        served.written = (sent.flatMap fun response => Frame.framed (Wire.encode response)) ∧
        served.ending = (match responses[sent.length]? with
          | none => ending
          | some response => .error (.frameTooLarge (Wire.encode response).length Frame.limit)) ∧
        (served.ending = .ok () ↔ sent = responses ∧ rest.length < 4) ∧
        (∀ rest', Stops α rest' ending →
          serve (Node.answer peers) (bodies.flatMap Frame.framed ++ rest') (node, world) = served) ∧
        (sent ≠ responses → ∀ later,
          serve (Node.answer peers) ((bodies.take (sent.length + 1)).flatMap Frame.framed ++ later) (node, world) =
            served) := by
  obtain ⟨bodies, requests, rest, ending, begins, stops⟩ := begins_exists α stream
  refine ⟨bodies, requests, rest, ending, begins, stops, fun _ _ _ begins' => begins.longest stops begins', ?_⟩
  intro responses sent served
  rw [← serveAll_foldl]
  rcases takeWhile_stops (fun response => decide (Frame.Fits response)) responses with
    ⟨all, fits⟩ | ⟨response, next, unfit, taken⟩
  · have fits : ∀ response ∈ responses, Frame.Fits response :=
      fun response member => of_decide_eq_true (fits response member)
    have here := begins.serve_all stops fits
    have whole : requests.length ≤ responses.length := Nat.le_of_eq (serveAll_length ..).symm
    rw [show sent = responses from all, show served = _ from here, List.take_of_length_le (Nat.le_succ_of_le whole),
      List.getElem?_eq_none (Nat.le_refl _)]
    refine ⟨rfl, rfl, rfl, ?_, ?_, fun differ => absurd rfl differ⟩
    · rw [stops.clean_iff]
      exact ⟨fun few => ⟨rfl, few⟩, And.right⟩
    · intro rest' stops'
      have begins' : Begins (bodies.flatMap Frame.framed ++ rest') bodies requests rest' :=
        ⟨rfl, begins.short, begins.decoded⟩
      exact begins'.serve_all stops' fits
  · have next : responses[sent.length]? = some response := next
    have taken : responses.take sent.length = sent := taken
    have fits : ∀ earlier ∈ responses.take sent.length, Frame.Fits earlier := by
      intro earlier member
      rw [taken] at member
      have passed := List.mem_takeWhile_imp member
      exact of_decide_eq_true passed
    have every := begins.serve_unfit next (of_decide_eq_false unfit) fits
    have spelled (rest' : List UInt8) : bodies.flatMap Frame.framed ++ rest' =
        (bodies.take (sent.length + 1)).flatMap Frame.framed ++
          ((bodies.drop (sent.length + 1)).flatMap Frame.framed ++ rest') := by
      rw [← List.append_assoc, ← List.flatMap_append, List.take_append_drop]
    rw [taken] at every
    have here := every ((bodies.drop (sent.length + 1)).flatMap Frame.framed ++ rest)
    rw [← spelled, ← begins.split] at here
    rw [show served = _ from here, next]
    refine ⟨rfl, rfl, rfl, ⟨nofun, ?_⟩, ?_, fun _ => every⟩
    · rintro ⟨all, _⟩
      rw [all, List.getElem?_eq_none (Nat.le_refl _)] at next
      cases next
    · intro rest' _
      rw [spelled]
      exact every _

end Connection

end Synod
