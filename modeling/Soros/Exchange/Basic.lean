import Soros.ProtocolClient.Invocation
import Soros.RegistryServer.Tracking

set_option autoImplicit false

/-! # Clients that may give up

One registry and any number of clients that call any of the public methods. A read that takes
too long ends with an error, and so may every other operation of a client; every system call of
the registry may fail. A message that is written arrives and stays in the stream until it is
read, also when the call that it was meant for has returned.

Every message to the registry carries, beside what the code sends, the client and the number of
the call; every message back carries the message that it answers or grants. Nothing is computed
from these. -/

namespace Soros

open RegistryServer (Tracked)

/-- A message to the registry, with the client and its call that has sent it. -/
structure Sent where
  client : ProcId
  call : Nat
  message : Message
  deriving DecidableEq

/-- A message from the registry, with the message that it answers or grants. -/
structure Heard where
  message : Message
  cause : Sent
  deriving DecidableEq

/-- A call in progress: what is left of it, and the last message that it has received. -/
structure Running where
  invocation : Invocation
  heard : Option Heard
  rest : ProtocolClient.Method Invocation.Returned

/-- A client of the registry. -/
structure Caller where
  self : ProtocolClient
  /-- How many calls it has started. -/
  calls : Nat
  running : Option Running
  /-- What the registry has sent and the client has not received, oldest first. -/
  inbox : List Heard
  /-- What the client has sent and the registry has not read, oldest first. -/
  outbox : List Sent

structure Exchange where
  registry : Tracked Sent
  callers : ProcId → Option Caller

namespace Exchange

/-- A call has returned; `heard` is the last message that it has received. -/
inductive Event where
  | returned (p : ProcId) (call : Nat) (invocation : Invocation) (heard : Option Heard)
      (result : Except ProtocolClientError Invocation.Returned)
  deriving DecidableEq

/-! ## The steps of a client -/

/-- How the operations of `ProtocolClient::new` end for a client that is greeted with a
message; the registry is the primary server, or the client does not reach that one. -/
def greeted (isPrimary : Bool) (message : Message) : (op : SocketOp) → op.Result
  | .call .connectPrimary =>
      if isPrimary then (none : Option IoError)
      else some ⟨.connectionRefused, "Connection refused (os error 111)"⟩
  | .call _ => (none : Option IoError)
  | .receive => (.ok message : Except ProtocolClientError Message)

/-- A client that has connected and been sent `messages`. -/
def greet (isPrimary : Bool) : List Message → Option Caller
  | [message] =>
      match ProtocolClient.new.runWith (greeted isPrimary message) with
      | .ok self => some { self, calls := 0, running := none, inbox := [], outbox := [] }
      | .error _ => none
  | _ => none

/-- The answer to a socket operation, what is received, and the client after it; `none` while it
blocks. With a `failure` it does not block any longer, and fails. There is no other registry. -/
def perform (p : ProcId) (c : Caller) (failure : Option IoError) :
    (op : SocketOp) → Option (op.Result × Option Heard × Caller)
  | .call (.writeAll message) =>
      match failure with
      | none => some ((none : Option IoError), none,
          { c with outbox := c.outbox ++ [⟨p, c.calls, message⟩] })
      | some e => some (some e, none, c)
  | .call .peek =>
      match failure with
      | none => if c.inbox = [] then none else some ((none : Option IoError), none, c)
      | some e => some (some e, none, c)
  | .call .connectPrimary | .call .connectSecondary =>
      failure.map fun e => (some e, none, c)
  | .call _ => some (failure, none, c)
  | .receive =>
      match failure, c.inbox with
      | some e, _ => some ((.error (.ioError e) : Except ProtocolClientError Message), none, c)
      | none, [] => none
      | none, h :: inbox =>
          some ((.ok h.message : Except ProtocolClientError Message), some h, { c with inbox })

/-- A client starts a call. -/
def begin (c : Caller) (invocation : Invocation) : Caller :=
  { c with
    calls := c.calls + 1
    running := some ⟨invocation, none, invocation.method c.self⟩ }

/-- A client goes on with what is left of its call, and returns if nothing is. -/
def resume (p : ProcId) (c : Caller) (invocation : Invocation) (heard : Option Heard) :
    ProtocolClient.Method Invocation.Returned → Caller × List Event
  | .done r => ({ c with running := none }, [.returned p c.calls invocation heard r])
  | rest => ({ c with running := some ⟨invocation, heard, rest⟩ }, [])

/-- The next socket operation of a client. -/
def proceed (p : ProcId) (c : Caller) (failure : Option IoError) : Caller × List Event :=
  match c.running with
  | some ⟨invocation, heard, .call op rest⟩ =>
      match perform p c failure op with
      | some (answer, received, c') => resume p c' invocation (received.or heard) (rest answer)
      | none => (c, [])
  | _ => (c, [])

/-! ## The steps of the registry -/

/-- The messages to the client `p`. -/
def heardBy (p : ProcId) (attributed : List ((TcpStream × Message) × Sent)) : List Heard :=
  attributed.filterMap fun x => if x.1.1 = p then some ⟨x.1.2, x.2⟩ else none

/-- Put a client in its place. -/
def setCaller (s : Exchange) (p : ProcId) (c : Option Caller) : Exchange :=
  { s with callers := Function.update s.callers p c }

@[simp] theorem setCaller_callers (s : Exchange) (p : ProcId) (c : Option Caller) :
    (s.setCaller p c).callers = Function.update s.callers p c := rfl

@[simp] theorem setCaller_registry (s : Exchange) (p : ProcId) (c : Option Caller) :
    (s.setCaller p c).registry = s.registry := rfl

/-- The registry reads what `p` has sent, and what it writes gets to the clients. -/
def handle (s : Exchange) (env : Env) (p : ProcId) (sent : Sent) : Exchange :=
  let r := s.registry.step (fun _ => sent) (.readable env p (.data sent.message))
  ⟨r.1, fun q => (s.callers q).map fun c =>
    { c with inbox := c.inbox ++ heardBy q r.2.attributed }⟩

/-- The registry takes a step in which it reads nothing. -/
def idle (s : Exchange) (input : RegistryServer.Input Message) : Exchange :=
  { s with registry := { s.registry with
    server := (RegistryServer.step Serde.direct s.registry.server input).1 } }

/-- One step. A step that is not possible changes nothing. -/
inductive Input where
  | connect (env : Env) (addr : SocketAddr) (isPrimary : Bool)
  | call (p : ProcId) (invocation : Invocation)
  | proceed (p : ProcId) (failure : Option IoError)
  /-- The registry reads the next message of `p`. -/
  | serve (p : ProcId) (env : Env)
  /-- The registry finds the connection of `p` at its end, or reading it fails. -/
  | hangup (p : ProcId) (env : Env) (failure : Option IoError)

/-- Sockets are numbered by the token that the registry gives them. -/
def step (s : Exchange) : Input → Exchange × List Event
  | .connect env addr isPrimary =>
      let server := s.registry.server
      let token := server.nextToken
      let input := .connection env token addr
      let written := (RegistryServer.step Serde.direct server input).2.flatMap
        RegistryServer.Served.written
      ((s.idle input).setCaller token (greet isPrimary (written.map Prod.snd)), [])
  | .call p invocation =>
      match s.callers p with
      | some c =>
          if c.running.isNone then (s.setCaller p (some (begin c invocation)), []) else (s, [])
      | none => (s, [])
  | .proceed p failure =>
      match s.callers p with
      | some c => (s.setCaller p (some (proceed p c failure).1), (proceed p c failure).2)
      | none => (s, [])
  | .serve p env =>
      match s.callers p with
      | some c =>
          match c.outbox, s.registry.server.tokenStreamMap p with
          | sent :: outbox, some _ =>
              -- under this token the registry reads the secondary server's socket
              if p = s.registry.server.backupToken then (s, [])
              else ((s.setCaller p (some { c with outbox })).handle env p sent, [])
          | _, _ => (s, [])
      | none => (s, [])
  | .hangup p env failure =>
      (s.idle (.readable env p (match failure with | none => .eof | some e => .failed e)), [])

/-- Exchanges with a registry that has just started. -/
def machine (secondaryServer : Option (SocketAddr × TcpStream)) :
    IOMachine Exchange Input Event where
  start := ⟨⟨RegistryServer.new secondaryServer, fun _ => [], []⟩, fun _ => none⟩
  step := step

end Exchange

end Soros
