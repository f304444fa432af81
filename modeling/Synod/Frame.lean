import Synod.Error
import Synod.Wire.Basic

/-! Frames on a byte stream. A frame is a header of four bytes, the length of the body with its
highest byte first, and the body. A stream is cut into frames by the headers alone, so a body that
is no message costs nothing but itself. -/

namespace Synod.Frame

/-- The longest body that is sent or taken. -/
def limit : Nat := 1024 * 1024

/-- A length in four bytes, highest first. -/
def header (length : Nat) : List UInt8 :=
  [(length / 0x1000000).toUInt8, (length / 0x10000).toUInt8, (length / 0x100).toUInt8, length.toUInt8]

def announced (a b c d : UInt8) : Nat :=
  a.toNat * 0x1000000 + b.toNat * 0x10000 + c.toNat * 0x100 + d.toNat

theorem announced_header {length : Nat} (fits : length < 0x100000000) :
    ∃ a b c d, header length = [a, b, c, d] ∧ announced a b c d = length := by
  refine ⟨_, _, _, _, rfl, ?_⟩
  simp only [announced, Nat.toUInt8_eq, UInt8.toNat_ofNat']
  omega

def ofBody (body : List UInt8) : Except TransportError (List UInt8) :=
  if limit < body.length then .error (.frameTooLarge body.length limit)
  else .ok (header body.length ++ body)

def write {μ : Type} [Wire μ] (message : μ) : Except TransportError (List UInt8) := ofBody (Wire.encode message)

/-- Send a message on a stream. Whether the message fits a frame is looked at before the stream is. -/
def send {μ : Type} [Wire μ] (peerGone : Bool) (message : μ) : Except TransportError (List UInt8) :=
  match write message with
  | .error error => .error error
  | .ok bytes => if peerGone then .error (.ofStream .brokenPipe) else .ok bytes

inductive Front where
  /-- Fewer bytes than a header: the stream ends between frames, or as good as. -/
  | done
  | tooLarge (size : Nat)
  | cut
  | body (bytes rest : List UInt8)
deriving DecidableEq, Repr

def front : List UInt8 → Front
  | a :: b :: c :: d :: rest =>
    let length := announced a b c d
    if limit < length then .tooLarge length
    else
      let (bytes, rest) := rest.splitAt length
      if bytes.length < length then .cut else .body bytes rest
  | _ => .done

/-- Whether more bytes may change what stands at the front of a stream. -/
def waits (stream : List UInt8) : Bool :=
  match front stream with
  | .done | .cut => true
  | .tooLarge _ | .body .. => false

theorem front_body_length {stream bytes rest : List UInt8} (found : front stream = .body bytes rest) :
    stream.length = 4 + bytes.length + rest.length := by
  match stream, found with
  | a :: b :: c :: d :: tail, found =>
    simp only [front] at found
    split at found
    · cases found
    · rw [List.splitAt_eq] at found
      dsimp only at found
      split at found
      · cases found
      · cases found
        simp only [List.length_cons, List.length_take, List.length_drop]
        omega

theorem front_header_append {body : List UInt8} (rest : List UInt8) (short : body.length ≤ limit) :
    front (header body.length ++ body ++ rest) = .body body rest := by
  have fits : body.length < 0x100000000 := by
    simp only [limit] at short
    omega
  obtain ⟨a, b, c, d, bytes, length⟩ := announced_header fits
  rw [bytes]
  simp [front, length, Nat.not_lt.2 short]

def decodeBody (μ : Type) [Wire μ] (bytes : List UInt8) : Except TransportError μ :=
  match Wire.decode μ bytes with
  | .ok message => .ok message
  | .error fault => .error (.codec fault fault.text)

def endedEarly : TransportError := .ofStream .unexpectedEnd

/-- Read one message: nothing at the end of the stream. Gives what is left of the stream, which after
an error other than a bad body is nothing that could be read on. -/
def read (μ : Type) [Wire μ] (stream : List UInt8) : Except TransportError (Option μ) × List UInt8 :=
  match front stream with
  | .done => (.ok none, [])
  | .tooLarge size => (.error (.frameTooLarge size limit), stream.drop 4)
  | .cut => (.error endedEarly, [])
  | .body bytes rest => ((decodeBody μ bytes).map some, rest)

/-- What a reader finds on a stream: messages and bad bodies, and then how the stream ends. -/
structure Contents (μ : Type) where
  messages : List (Except TransportError μ)
  ending : Except TransportError Unit

/-- Read to the end of a stream, passing over bad bodies. -/
def readAll (μ : Type) [Wire μ] (stream : List UInt8) : Contents μ :=
  match _found : front stream with
  | .done => ⟨[], .ok ()⟩
  | .tooLarge size => ⟨[], .error (.frameTooLarge size limit)⟩
  | .cut => ⟨[], .error endedEarly⟩
  | .body bytes rest =>
    let contents := readAll μ rest
    { contents with messages := decodeBody μ bytes :: contents.messages }
termination_by stream.length
decreasing_by
  have := front_body_length _found
  omega

end Synod.Frame
