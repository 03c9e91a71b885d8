import Kovert.RuntimeStep
import Kovert.Foundations.Mailbox

/-!
# The control socket

`serve` and `handle_connection` of `kovert-daemon/src/server.rs`, the channels
that `main.rs` creates and the loop of `Runtime::run` over them. Every accepted
connection is a task of its own, so the process is a labelled transition system:
which task moves next, and when the runtime takes a message or an event, is up to
the scheduler. The runtime's own work is that of `Daemon.step`.
-/

namespace Kovert

open Session

/-! ## Messages -/

structure RequestEnvelope where
  version : ℕ
  request : Request

def ipcVersion : ℕ := 1

def RequestEnvelope.new (request : Request) : RequestEnvelope := ⟨ipcVersion, request⟩

/-- The texts of `serde_json` on the socket. -/
structure WireFormat where
  writeRequest : RequestEnvelope → Except String (List UInt8)
  readRequest : List UInt8 → Except String RequestEnvelope
  writeResponse : Response → Except String (List UInt8)
  readResponse : List UInt8 → Except String Response

/-- A request on its way to the runtime; the number of its connection stands for
the response channel. -/
structure ControlMessage where
  client : ℕ
  request : Request

def maxRequestSize : ℕ := 1024 * 1024

def maxClients : ℕ := 64

/-- The capacity of the control channel. -/
def controlBuffer : ℕ := 64

/-! ## Connections -/

/-- What `handle_connection` makes of the bytes it has read: a request for the
runtime, a response of its own and what it returns after it, or an error. -/
inductive Admission where
  | accepted (request : Request)
  | refused (response : Response) (error : Option String)
  | failed (message : String)

def admission (wire : WireFormat) (peerUid : ℕ) (input : List UInt8) : Admission :=
  if maxRequestSize < input.length then
    .refused (.error "request exceeds 1 MiB")
      (some ("oversized request from uid " ++ toString peerUid))
  else
    match wire.readRequest input with
    | .error _ => .failed "parse control request"
    | .ok envelope =>
      if envelope.version ≠ ipcVersion then
        .refused (.error ("unsupported protocol version " ++ toString envelope.version ++
          "; daemon supports " ++ toString ipcVersion)) none
      else .accepted envelope.request

/-- How the task of a connection ends; `lost` is the end of the process. -/
inductive Ending where
  | finished
  | failed (message : String)
  | timedOut
  | lost
  deriving DecidableEq, Repr

/-- The awaits of `handle_connection`. -/
inductive Stage where
  | reading
  | sending (request : Request)
  | awaiting
  | writing (response : Response) (error : Option String)
  | closed (ending : Ending)

/-- One accepted connection. What it has read and what it has written in full
are kept after its end. -/
structure Client where
  peerUid : ℕ
  stage : Stage
  input : Option (List UInt8)
  output : Option (List UInt8)

/-- The steps a connection takes without the runtime; `sent` is all that the peer
sends before it closes its side. -/
inductive ClientMove where
  | receive (sent : Except String (List UInt8))
  | write (result : Except String Unit)
  | expire
  | abandon

namespace Client

def connected (peerUid : ℕ) : Client := ⟨peerUid, .reading, none, none⟩

def active (client : Client) : Bool :=
  match client.stage with
  | .closed _ => false
  | _ => true

/-- The request has not been handed over yet. -/
def preparing (client : Client) : Bool :=
  match client.stage with
  | .reading | .sending _ => true
  | _ => false

def close (client : Client) (ending : Ending) : Client := { client with stage := .closed ending }

/-- `read_to_end` behind `take(MAX_REQUEST_SIZE + 1)`, and what follows up to the next await. -/
def receive (wire : WireFormat) (client : Client) (sent : List UInt8) : Client :=
  let input := sent.take (maxRequestSize + 1)
  { client with
    input := some input
    stage :=
      match admission wire client.peerUid input with
      | .accepted request => .sending request
      | .refused response error => .writing response error
      | .failed message => .closed (.failed message) }

/-- `write_response` and the end of the task. -/
def finish (wire : WireFormat) (client : Client) (response : Response) (error : Option String)
    (result : Except String Unit) : Client :=
  match wire.writeResponse response, result with
  | .error message, _ => client.close (.failed message)
  | .ok _, .error message => client.close (.failed message)
  | .ok bytes, .ok _ =>
    { client with
      output := some (bytes ++ [10])
      stage := .closed
        (match error with
        | some message => .failed message
        | none => .finished) }

/-- `listening` says whether the runtime still holds the receivers. -/
def move (wire : WireFormat) (listening : Bool) (client : Client) : ClientMove → Option Client
  | .receive sent =>
    match client.stage, sent with
    | .reading, .error _ => some (client.close (.failed "read control request"))
    | .reading, .ok bytes => some (client.receive wire bytes)
    | _, _ => none
  | .write result =>
    match client.stage with
    | .writing response error => some (client.finish wire response error result)
    | _ => none
  | .expire => if client.active then some (client.close .timedOut) else none
  | .abandon =>
    match client.stage, listening with
    | .sending _, false => some (client.close (.failed "runtime control channel closed"))
    | .awaiting, false => some (client.close (.failed "runtime response dropped"))
    | _, _ => none

/-- The response channel's other end; a connection that has given up ignores it. -/
def respond (response : Option Response) (client : Client) : Client :=
  match client.stage, response with
  | .awaiting, some response => { client with stage := .writing response none }
  | _, _ => client

def lose (client : Client) : Client := if client.active then client.close .lost else client

end Client

/-! ## The process -/

/-- A control message that the runtime has taken, with its response unless the
process died under it; `position` counts the daemon's steps before. -/
structure Exchange extends ControlMessage where
  situation : Situation
  response : Option Response
  position : ℕ

/-- The daemon with its connections and channels. `clients` numbers all
connections ever accepted; `steps` and `exchanges` are history. -/
structure System where
  daemon : Daemon
  alive : Bool
  permits : ℕ
  clients : List Client
  control : Mailbox ControlMessage
  events : Mailbox Event
  steps : List DaemonOp
  exchanges : List Exchange

/-- `connect` is an accepted connection, `enqueue` a completed `send` of a client
on the control channel, `serve` and `handle` the two receiving branches of the
runtime's loop, `send` and `offer` the sensors' `send` and `try_send`, and
`exit` the end of the process. -/
inductive SystemOp where
  | start (situation : Situation) (maxRecords : ℕ) (verifyOnStart : Bool)
  | connect (peerUid : ℕ)
  | move (k : ℕ) (clientMove : ClientMove)
  | enqueue (k : ℕ)
  | serve (situation : Situation)
  | send (event : Event)
  | offer (event : Event)
  | handle (host : Host)
  | shutdown
  | exit

namespace System

/-- A process that has not been started, over a store left by earlier runs. -/
def initial (store : DaemonStore) : System where
  daemon := .down store
  alive := false
  permits := 0
  clients := []
  control := .empty controlBuffer
  events := .empty 0
  steps := []
  exchanges := []

def listening (system : System) : Bool := system.daemon.runtime.isSome

/-- The receivers go with the runtime, and what is queued goes with them. -/
def hangUp (system : System) : System :=
  if system.listening then system
  else { system with
    control := .empty controlBuffer
    events := .empty system.events.capacity }

/-- A step of the daemon. -/
def advance (env : Environment) (op : DaemonOp) (system : System) : Option System :=
  (system.daemon.step env op).map (fun daemon =>
    hangUp { system with daemon := daemon, steps := system.steps ++ [op] })

/-- The channels and the permits that `main` and `serve` create for a new process. -/
def openChannels (system : System) : System :=
  match system.daemon.runtime with
  | none => system
  | some runtime =>
    { system with
      alive := true
      permits := maxClients
      control := .empty controlBuffer
      events := .empty runtime.config.daemon.eventBuffer }

/-- The response of the runtime to a request, unless it dies. -/
def answer (env : Environment) (situation : Situation) (request : Request) (runtime : Runtime)
    (daemon : Daemon) : Option Response :=
  (handleControl env situation request { daemon.toJournal with runtime := runtime }).1.toOption

def step (env : Environment) (wire : WireFormat) (system : System) : SystemOp → Option System
  | .start situation maxRecords verifyOnStart =>
    if system.alive then none
    else (system.advance env (.start situation maxRecords verifyOnStart)).map openChannels
  | .connect peerUid =>
    if !system.alive then none
    else if system.permits = 0 then some system
    else some { system with
      permits := system.permits - 1
      clients := system.clients ++ [.connected peerUid] }
  | .move k clientMove => do
    let client ← system.clients[k]?
    let next ← client.move wire system.listening clientMove
    some { system with
      clients := system.clients.set k next
      permits := if next.active then system.permits else system.permits + 1 }
  | .enqueue k => do
    let client ← system.clients[k]?
    match client.stage with
    | .sending request =>
      if system.listening then
        (system.control.post ⟨k, request⟩).map (fun control =>
          { system with
            control := control
            clients := system.clients.set k { client with stage := .awaiting } })
      else none
    | _ => none
  | .serve situation => do
    let runtime ← system.daemon.runtime
    let (message, control) ← system.control.take
    let response := answer env situation message.request runtime system.daemon
    advance env (.control situation message.request)
      { system with
        control := control
        clients := system.clients.modify message.client (Client.respond response)
        exchanges := system.exchanges ++
          [⟨message, situation, response, system.steps.length⟩] }
  | .send event =>
    if system.listening then
      (system.events.post event).map (fun events => { system with events := events })
    else none
  | .offer event =>
    if system.listening then
      some { system with events := (system.events.post event).getD system.events }
    else none
  | .handle host => do
    let (event, events) ← system.events.take
    advance env (.event host event) { system with events := events }
  | .shutdown => system.advance env .shutdown
  | .exit =>
    if system.alive then
      (system.advance env .kill).map (fun system =>
        { system with alive := false, clients := system.clients.map Client.lose })
    else none

end System

end Kovert
