import Synod.Frame
import Synod.Wire.Message

/-! One connection between a client and a server. The client sends requests in frames, and the server
answers each of them before it reads the next. The first frame that is not a request ends the
connection, as does the first response that does not fit a frame. -/

namespace Synod.Connection

variable {σ α : Type} [Wire α]

/-- What a server did on a connection: the bytes it wrote, how the connection ended, and the world after it. -/
structure Served (σ : Type) where
  written : List UInt8
  ending : Except TransportError Unit
  world : σ

/-- What a server makes of the bytes that it has: the connection is over, or there is a request to answer and then
the rest of the bytes. -/
inductive Turn (α : Type) where
  | finish (ending : Except TransportError Unit)
  | request (request : Request α) (rest : List UInt8)

def turn (stream : List UInt8) : Turn α :=
  match Frame.front stream with
  | .done => .finish (.ok ())
  | .tooLarge size => .finish (.error (.frameTooLarge size Frame.limit))
  | .cut => .finish (.error Frame.endedEarly)
  | .body bytes rest =>
    match Frame.decodeBody (Request α) bytes with
    | .error error => .finish (.error error)
    | .ok request => .request request rest

theorem turn_rest_length {stream rest : List UInt8} {request : Request α} (next : turn stream = .request request rest) :
    rest.length < stream.length := by
  unfold turn at next
  split at next
  case h_4 bytes rest' found =>
    have length := Frame.front_body_length found
    split at next <;> cases next
    omega
  all_goals cases next

/-- Serve the bytes that a client sends before it closes its side. -/
def serve (handle : Request α → σ → Response α × σ) (stream : List UInt8) (world : σ) : Served σ :=
  match _found : turn stream with
  | .finish ending => ⟨[], ending, world⟩
  | .request request rest =>
    let (response, world) := handle request world
    match Frame.write response with
    | .error error => ⟨[], .error error, world⟩
    | .ok frame =>
      let served := serve handle rest world
      { served with written := frame ++ served.written }
termination_by stream.length
decreasing_by exact turn_rest_length _found

/-- What a client makes of the bytes that a server wrote before it closed the connection. -/
def received (written : List UInt8) : Reply (Response α) :=
  match (Frame.read (Response α) written).1 with
  | .error error => .error error
  | .ok (some response) => .ok response
  | .ok none => .error (.stream .unexpectedEnd "connection closed before reply")

inductive Server where
  | absent (error : TransportError)
  | silent
  | answers (bytes : List UInt8)

/-- Send one request. Gives the body that the server got, and the response. A request that does not fit a
frame is not sent. -/
def ask (server : Server) (address : String) (request : Request α) : Option (List UInt8) × Reply (Response α) :=
  match server, Frame.write request with
  | .absent error, _ => (none, .error error)
  | _, .error error => (none, .error error)
  | .silent, .ok _ => (some (Wire.encode request), .error (.timeout address))
  | .answers bytes, .ok _ => (some (Wire.encode request), received bytes)

def exchange (handle : Request α → σ → Response α × σ) (request : Request α) (world : σ) :
    Reply (Response α) × σ :=
  match Frame.write request with
  | .error error => (.error error, world)
  | .ok frame =>
    let served := serve handle frame world
    (received served.written, served.world)

end Synod.Connection
