import Std.Async.TCP
import Synod.Connection
import Synod.Work

/-! Nodes and clients on real sockets. Connections run side by side and share one node, whose acceptor
and mint change only in single steps. What is said, asked and answered is decided by `Connection.turn`,
`Node.begin` and the work that it gives; here it is carried out. -/

namespace Synod.Service

open Std.Net Std.Async Std.Async.TCP

def socketAddress? (address : String) : Option SocketAddress :=
  match (address.splitOn ":").reverse with
  | port :: host =>
    match port.toNat?, IPv4Addr.ofString (":".intercalate host.reverse) with
    | some port, some host => if port < UInt16.size then some (.v4 ⟨host, port.toUInt16⟩) else none
    | _, _ => none
  | [] => none

def failed : IO.Error → TransportError
  | .noSuchThing .. => .ofStream .connectionRefused
  | error => .stream .other (toString error)

def peerName (socket : Socket.Client) : IO String := do
  match ← socket.getPeerName with
  | .v4 peer => return toString peer.addr ++ ":" ++ toString peer.port
  | .v6 peer => return "[" ++ toString peer.addr ++ "]:" ++ toString peer.port

/-- Wait for work, but not longer than some milliseconds. What is late goes on without a thread. -/
def within? {β : Type} (limit : Nat) (work : Async β) : IO (Option (Except IO.Error β)) := do
  let task ← work.asTask
  let start ← IO.monoMsNow
  while !(← IO.hasFinished task) do
    if limit ≤ (← IO.monoMsNow) - start then return none
    IO.sleep 1
  return some task.get

/-- Receive until the first frame of a stream is whole, or cannot become so. -/
def receive (socket : Socket.Client) (stream : List UInt8) : Async (List UInt8) := do
  let mut stream := stream
  while Frame.waits stream do
    match ← socket.recv? 65536 with
    | some bytes => stream := stream ++ bytes.toList
    | none => break
  return stream

def transmit (socket : Socket.Client) (frame : List UInt8) : Async Unit := socket.send ⟨frame.toArray⟩

def call (address : String) (limit : Nat) (request : Request String) : IO (Reply (Response String)) := do
  match socketAddress? address with
  | none => return .error (.ofStream .invalidInput)
  | some peer =>
    let exchanged ← within? limit do
      let socket ← Socket.Client.mk
      socket.connect peer
      match Frame.write request with
      | .error error => return .error error
      | .ok frame =>
        transmit socket frame
        return Connection.received (← receive socket [])
    match exchanged with
    | none => return .error (.timeout address)
    | some (.error error) => return .error (failed error)
    | some (.ok reply) => return reply

structure Running where
  config : Config
  node : IO.Ref (Node String)

namespace Running

def say (r : Running) (event : Event) : IO Unit := do
  if event.level.shownAt r.config.logLevel then IO.eprintln event.line

def meet (r : Running) (demand : Demand String) : IO (Reply (Response String)) := do
  let (response, event) ← r.node.modifyGet (·.meet demand)
  r.say event
  return .ok response

def askAll (r : Running) (demand : Demand String) : IO (List (Reply (Response String))) := do
  let tasks ← (← r.node.get).ways.mapM fun
    | .own => IO.asTask (r.meet demand)
    | .remote address => IO.asTask (call address r.config.requestTimeout demand.request) .dedicated
  tasks.mapM fun task => do
    match ← IO.wait task with
    | .ok reply => return reply
    | .error error => return .error (failed error)

def carryOut (r : Running) : Work String → IO (Response String)
  | .done events response => do
    events.forM r.say
    return response
  | .ask events demand resume => do
    events.forM r.say
    let replies ← r.askAll demand
    r.carryOut (resume replies)

def handle (r : Running) (request : Request String) : IO (Response String) := do
  r.carryOut (← r.node.modifyGet (·.begin request))

def serve (r : Running) (socket : Socket.Client) : IO (Except TransportError Unit) := do
  let mut stream := []
  repeat
    let known := stream
    match ← within? r.config.requestTimeout (receive socket known) with
    | none =>
      r.say (.idle r.config.nodeId)
      return .ok ()
    | some (.error error) => return .error (failed error)
    | some (.ok received) =>
      match Connection.turn received with
      | .finish (.error error) => return .error error
      | .finish (.ok ()) => break
      | .request request rest =>
        match Frame.write (← r.handle request) with
        | .error error => return .error error
        | .ok frame =>
          (transmit socket frame).block
          stream := rest
  r.say (.disconnected r.config.nodeId)
  return .ok ()

def welcome (r : Running) (socket : Socket.Client) : IO Unit := do
  let ending ← try r.serve socket catch error => pure (.error (failed error))
  match ending with
  | .ok () => pure ()
  | .error error => r.say (.connectionFailed (← try peerName socket catch _ => pure "?") error)
  try socket.shutdown.block catch _ => pure ()

end Running

/-- Run a node. Comes back only if the node cannot listen at its address. -/
def run (config : Config) : IO Unit := do
  match socketAddress? config.listen with
  | none => throw (IO.userError StreamError.invalidInput.text)
  | some address =>
    let listener ← Socket.Server.mk
    listener.bind address
    listener.listen 128
    let node := Node.ofConfig config
    let running : Running := ⟨config, ← IO.mkRef node⟩
    running.say node.joined
    running.say (.listening config.nodeId config.listen)
    repeat
      let socket ← listener.accept.block
      discard (IO.asTask (running.welcome socket) .dedicated)

end Synod.Service
