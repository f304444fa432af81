import Mathlib.Data.List.Basic
import Synod.Proofs.FrameRoundTrip

/-! How a stream is cut into frames. Headers alone decide where a frame ends, so what a body holds, and whether it is a
message, matters to no other frame. A stream of any bytes is some whole frames and an end that is none. -/

namespace Synod.Frame

def framed (body : List UInt8) : List UInt8 := header body.length ++ body

def bigEndian (bytes : List UInt8) : Nat := bytes.foldl (fun number byte => number * 256 + byte.toNat) 0

/-- A stream that begins with a whole frame which is taken. -/
def Opens (stream : List UInt8) : Prop := ∃ body rest, body.length ≤ limit ∧ stream = framed body ++ rest

/-- How a stream ends that does not begin so. -/
inductive Ends : List UInt8 → Except TransportError Unit → Prop where
  | between {tail : List UInt8} (few : tail.length < 4) : Ends tail (.ok ())
  | tooLarge {head rest : List UInt8} (whole : head.length = 4) (long : limit < bigEndian head) :
      Ends (head ++ rest) (.error (.frameTooLarge (bigEndian head) limit))
  | early {head rest : List UInt8} (whole : head.length = 4) (taken : bigEndian head ≤ limit)
      (short : rest.length < bigEndian head) : Ends (head ++ rest) (.error endedEarly)

def Front.ending? : Front → Option (Except TransportError Unit)
  | .done => some (.ok ())
  | .tooLarge size => some (.error (.frameTooLarge size limit))
  | .cut => some (.error endedEarly)
  | .body .. => none

private theorem announced_eq (a b c d : UInt8) : announced a b c d = bigEndian [a, b, c, d] := by
  simp only [announced, bigEndian, List.foldl_cons, List.foldl_nil]
  omega

private theorem header_announced (a b c d : UInt8) : header (announced a b c d) = [a, b, c, d] := by
  have bounds := And.intro a.toNat_lt (And.intro b.toNat_lt (And.intro c.toNat_lt d.toNat_lt))
  simp only [header, announced, Nat.toUInt8_eq, List.cons.injEq, and_true, ← UInt8.toNat_inj, UInt8.toNat_ofNat']
  omega

theorem front_whole (a b c d : UInt8) (rest : List UInt8) : front (a :: b :: c :: d :: rest) =
    if limit < bigEndian [a, b, c, d] then .tooLarge (bigEndian [a, b, c, d])
    else if rest.length < bigEndian [a, b, c, d] then .cut
    else .body (rest.take (bigEndian [a, b, c, d])) (rest.drop (bigEndian [a, b, c, d])) := by
  have short (length : Nat) : (min length rest.length < length) = (rest.length < length) := propext (by omega)
  simp only [front, announced_eq, List.splitAt_eq, List.length_take, short]

theorem front_few {stream : List UInt8} (few : stream.length < 4) : front stream = .done := by
  match stream, few with
  | [], _ | [_], _ | [_, _], _ | [_, _, _], _ => rfl

theorem whole_of_length {stream : List UInt8} (enough : 4 ≤ stream.length) :
    ∃ a b c d rest, stream = a :: b :: c :: d :: rest := by
  match stream, enough with
  | a :: b :: c :: d :: rest, _ => exact ⟨a, b, c, d, rest, rfl⟩

/-- A body is found exactly where it was framed. -/
theorem front_body_iff {stream body rest : List UInt8} :
    front stream = .body body rest ↔ body.length ≤ limit ∧ stream = framed body ++ rest := by
  constructor
  · intro found
    rcases Nat.lt_or_ge stream.length 4 with few | enough
    · cases (front_few few).symm.trans found
    obtain ⟨a, b, c, d, tail, rfl⟩ := whole_of_length enough
    have whole := front_whole a b c d tail
    rw [found] at whole
    split at whole
    · cases whole
    next taken =>
      split at whole
      · cases whole
      next enough =>
        have length : (tail.take (bigEndian [a, b, c, d])).length = bigEndian [a, b, c, d] :=
          List.length_take_of_le (Nat.not_lt.1 enough)
        cases whole
        rw [framed, length, ← announced_eq, header_announced, List.append_assoc, List.take_append_drop]
        exact ⟨announced_eq a b c d ▸ Nat.not_lt.1 taken, rfl⟩
  · rintro ⟨short, rfl⟩
    exact front_header_append rest short

theorem ends_iff {stream : List UInt8} {ending : Except TransportError Unit} :
    Ends stream ending ↔ (front stream).ending? = some ending := by
  constructor
  · intro ends
    cases ends with
    | between few => rw [front_few few, Front.ending?]
    | @tooLarge head rest whole long =>
      match head, whole with
      | [a, b, c, d], _ => exact congrArg Front.ending? ((front_whole a b c d rest).trans (if_pos long))
    | @early head rest whole taken short =>
      match head, whole with
      | [a, b, c, d], _ =>
        have cut := (front_whole a b c d rest).trans ((if_neg (Nat.not_lt.2 taken)).trans (if_pos short))
        exact congrArg Front.ending? cut
  · intro ended
    rcases Nat.lt_or_ge stream.length 4 with few | enough
    · rw [front_few few] at ended
      cases ended
      exact .between few
    obtain ⟨a, b, c, d, rest, rfl⟩ := whole_of_length enough
    rw [front_whole] at ended
    split at ended
    next long =>
      cases ended
      exact (Ends.tooLarge rfl long : Ends ([a, b, c, d] ++ rest) _)
    next taken =>
      split at ended
      next short =>
        cases ended
        exact (Ends.early rfl (Nat.not_lt.1 taken) short : Ends ([a, b, c, d] ++ rest) _)
      · cases ended

theorem Ends.unique {stream : List UInt8} {ending ending' : Except TransportError Unit} (ends : Ends stream ending)
    (ends' : Ends stream ending') : ending = ending' :=
  Option.some.inj ((ends_iff.1 ends).symm.trans (ends_iff.1 ends'))

/-- A stream goes on with a whole frame or has come to its end. -/
theorem opens_or_ends (stream : List UInt8) : Opens stream ∨ ∃ ending, Ends stream ending := by
  cases found : front stream with
  | body bytes rest => exact .inl ⟨bytes, rest, front_body_iff.1 found⟩
  | done | tooLarge size | cut => exact .inr ⟨_, ends_iff.2 (by rw [found]; rfl)⟩

section

variable (μ : Type) [Wire μ] {stream body : List UInt8}

theorem read_framed (short : body.length ≤ limit) (rest : List UInt8) :
    read μ (framed body ++ rest) = ((decodeBody μ body).map some, rest) := by
  rw [read, front_body_iff.2 ⟨short, rfl⟩]

theorem readAll_eq (stream : List UInt8) : readAll μ stream =
    match front stream with
    | .done => ⟨[], .ok ()⟩
    | .tooLarge size => ⟨[], .error (.frameTooLarge size limit)⟩
    | .cut => ⟨[], .error endedEarly⟩
    | .body bytes rest => ⟨decodeBody μ bytes :: (readAll μ rest).messages, (readAll μ rest).ending⟩ := by
  conv => lhs; unfold readAll
  split <;> simp only [*]

theorem readAll_framed (short : body.length ≤ limit) (rest : List UInt8) :
    readAll μ (framed body ++ rest) = ⟨decodeBody μ body :: (readAll μ rest).messages, (readAll μ rest).ending⟩ := by
  rw [readAll_eq, front_body_iff.2 ⟨short, rfl⟩]

/-- Where a stream ends there is nothing but its end to read. -/
theorem read_ended {ending : Except TransportError Unit} (ends : Ends stream ending) :
    (read μ stream).1 = (ending.map fun _ => none) ∧ readAll μ stream = ⟨[], ending⟩ := by
  have ended := ends_iff.1 ends
  rw [read, readAll_eq]
  cases found : front stream with
  | done | tooLarge size | cut => rw [found] at ended; cases ended; exact ⟨rfl, rfl⟩
  | body bytes rest => rw [found] at ended; cases ended

theorem receive_framed {bodies : List (List UInt8)} {tail : List UInt8} {ending : Except TransportError Unit}
    (short : ∀ body ∈ bodies, body.length ≤ limit) (ends : Ends tail ending) :
    receive μ (bodies.length + 1) (bodies.flatMap framed ++ tail) =
      bodies.map (fun body => (decodeBody μ body).map some) ++ [ending.map fun _ => none] := by
  induction bodies with
  | nil => exact congrArg (· :: []) (read_ended μ ends).1
  | cons body bodies ih =>
    have first := read_framed μ (short body (by simp)) (bodies.flatMap framed ++ tail)
    have others := ih fun body member => short body (List.mem_cons_of_mem _ member)
    rw [List.length_cons, List.flatMap_cons, List.append_assoc, receive, first, others]
    rfl

private theorem readAll_flatMap {bodies : List (List UInt8)} {tail : List UInt8} {ending : Except TransportError Unit}
    (short : ∀ body ∈ bodies, body.length ≤ limit) (ends : Ends tail ending) :
    readAll μ (bodies.flatMap framed ++ tail) = ⟨bodies.map (decodeBody μ), ending⟩ := by
  induction bodies with
  | nil => exact (read_ended μ ends).2
  | cons body bodies ih =>
    have others := ih fun body member => short body (List.mem_cons_of_mem _ member)
    rw [List.flatMap_cons, List.append_assoc, readAll_framed μ (short body (by simp)), others]
    rfl

theorem framed_length (body : List UInt8) : (framed body).length = 4 + body.length := List.length_append

/-- A call that takes a frame takes all of it and nothing else, whether its body is a message or not. -/
theorem read_consumes
    (taken : (∃ message, (read μ stream).1 = .ok (some message)) ∨
      ∃ fault detail, (read μ stream).1 = .error (.codec fault detail)) :
    ∃ body, body.length ≤ limit ∧ stream = framed body ++ (read μ stream).2 ∧
      (read μ stream).1 = (decodeBody μ body).map some ∧
      stream.length = 4 + body.length + (read μ stream).2.length := by
  rcases opens_or_ends stream with ⟨body, rest, short, rfl⟩ | ⟨ending, ends⟩
  · rw [read_framed μ short]
    exact ⟨body, short, rfl, rfl, by rw [List.length_append, framed_length]⟩
  · rw [(read_ended μ ends).1] at taken
    cases ends <;> rcases taken with ⟨message, taken⟩ | ⟨fault, detail, taken⟩ <;> cases taken

/-- Any bodies that fit their frames, messages or not, are read one by one as each alone would be, and the rest of the
stream brings one more result, which it alone decides. A call that takes a frame goes on exactly behind it. -/
theorem segments :
    (∀ (bodies : List (List UInt8)) (tail : List UInt8), (∀ body ∈ bodies, body.length ≤ 2 ^ 20) → ¬ Opens tail →
      ∃ ending, (∀ other, Ends tail other ↔ other = ending) ∧
        receive μ (bodies.length + 1) (bodies.flatMap framed ++ tail) =
          bodies.map (fun body => (decodeBody μ body).map some) ++ [ending.map fun _ => none] ∧
        readAll μ (bodies.flatMap framed ++ tail) = ⟨bodies.map (decodeBody μ), ending⟩) ∧
      ∀ stream, ((∃ message, (read μ stream).1 = .ok (some message)) ∨
          ∃ fault detail, (read μ stream).1 = .error (.codec fault detail)) →
        ∃ body, body.length ≤ 2 ^ 20 ∧ stream = framed body ++ (read μ stream).2 ∧
          (read μ stream).1 = (decodeBody μ body).map some ∧
          stream.length = 4 + body.length + (read μ stream).2.length := by
  refine ⟨?_, fun stream taken => read_consumes μ taken⟩
  intro bodies tail short broken
  obtain opens | ⟨ending, ends⟩ := opens_or_ends tail
  · exact absurd opens broken
  · have same (other : Except TransportError Unit) : Ends tail other ↔ other = ending :=
      ⟨fun ends' => ends'.unique ends, fun equal => equal ▸ ends⟩
    exact ⟨ending, same, receive_framed μ short ends, readAll_flatMap μ short ends⟩

end

/-- Only the third body is a message. The second reads like the header of two bytes more, and three bytes are no header. -/
theorem segments_of_ballots :
    let bodies : List (List UInt8) := [[], [0, 0, 0, 2], Wire.encode (Ballot.mk 1 2), [123, 123, 123]]
    ¬ Opens [0, 0, 4] ∧ receive Ballot 5 (bodies.flatMap framed ++ [0, 0, 4]) =
      [.error (.codec .truncated Fault.truncated.text), .error (.codec .malformed Fault.malformed.text),
        .ok (some ⟨1, 2⟩), .error (.codec .malformed Fault.malformed.text), .ok none] := by
  intro bodies
  have broken : ¬ Opens [0, 0, 4] := by
    rintro ⟨body, rest, _, same⟩
    have length := congrArg List.length same
    simp only [List.length_append, framed_length, List.length_cons, List.length_nil] at length
    omega
  obtain ⟨ending, ends, results, _⟩ := (segments Ballot).1 bodies [0, 0, 4] (by decide) broken
  obtain rfl := (ends (.ok ())).1 (.between (by decide))
  exact ⟨broken, results.trans (by decide)⟩

end Synod.Frame
