import Soros.ProtocolClient.Basic

set_option autoImplicit false

/-! # Clients and a registry

One registry and any number of clients that use its synchronous methods, without failures:
sockets are first-in first-out and lose nothing, and every system call succeeds. A client does
one socket operation at a time, the registry reads one message at a time, and the steps of all
of them are interleaved in any order.

Sockets are numbered by the token that the registry gives them. A registry without a backup
takes its first connection for that of a primary registry; nothing is sent on it. -/

namespace Soros

/-- A client of the registry. -/
structure Client where
  self : ProtocolClient
  /-- The call in progress, and what is left of it. -/
  running : Option (RequestType × KeyId × ProtocolClient.Method (Option SocketAddr))
  /-- What the registry has sent and the client has not received, oldest first. -/
  inbox : List Message
  /-- What the client has sent and the registry has not read, oldest first. -/
  outbox : List Message
  /-- The accesses the client has, as far as it knows: from the moment `registry_read_sync` or
  `registry_write_sync` returns `Ok` until it starts `registry_release`. -/
  inside : KeyId → Option RequestType

structure Session where
  registry : RegistryServer
  clients : ProcId → Option Client

namespace Session

inductive Event where
  | called (p : ProcId) (requestType : RequestType) (keyId : KeyId)
  | returned (p : ProcId) (requestType : RequestType) (keyId : KeyId)
      (r : Except ProtocolClientError (Option SocketAddr))
  /-- The registry has read a message of `p`. -/
  | asked (p : ProcId) (message : Message)
  /-- The registry has written a message on the socket of `p`. -/
  | sent (p : ProcId) (message : Message)

/-- What has been written on the socket of `p`. -/
def sentTo (p : ProcId) (written : List (TcpStream × Message)) : List Message :=
  written.filterMap fun w => if w.1 = p then some w.2 else none

/-! ## The steps of a client -/

/-- How the operations of `ProtocolClient::new` end for a client that is greeted with a
message. -/
def greeted (message : Message) : (op : SocketOp) → op.Result
  | .call _ => (none : Option IoError)
  | .receive => (.ok message : Except ProtocolClientError Message)

/-- A client that has connected and been sent `messages`. -/
def greet : List Message → Option Client
  | [message] =>
      match ProtocolClient.new.runWith (greeted message) with
      | .ok self => some
          { self, running := none, inbox := [], outbox := [], inside := fun _ => none }
      | .error _ => none
  | _ => none

/-- The answer to a socket operation, and the client after it; `none` while it blocks. -/
def perform (c : Client) : (op : SocketOp) → Option (op.Result × Client)
  | .call (.writeAll message) =>
      some ((none : Option IoError), { c with outbox := c.outbox ++ [message] })
  | .call .peek => if c.inbox = [] then none else some ((none : Option IoError), c)
  | .call _ => some ((none : Option IoError), c)
  | .receive =>
      match c.inbox with
      | [] => none
      | message :: inbox => some ((.ok message : Except ProtocolClientError Message), { c with inbox })

/-- A client starts a call. -/
def begin (c : Client) (t : RequestType) (k : KeyId) : Client :=
  { c with
    running := some (t, k, c.self.syncCall t k)
    inside := if t = .release then Function.update c.inside k none else c.inside }

/-- What a client knows of its access after a call that has returned `r`. -/
def learn (inside : KeyId → Option RequestType) (t : RequestType) (k : KeyId)
    (r : Except ProtocolClientError (Option SocketAddr)) : KeyId → Option RequestType :=
  match t, r with
  | .read, .ok _ => Function.update inside k (some .read)
  | .write, .ok _ => Function.update inside k (some .write)
  | _, _ => inside

/-- A client goes on with what is left of its call, and returns if nothing is. -/
def resume (p : ProcId) (c : Client) (t : RequestType) (k : KeyId) :
    ProtocolClient.Method (Option SocketAddr) → Client × List Event
  | .done r => ({ c with running := none, inside := learn c.inside t k r }, [.returned p t k r])
  | rest => ({ c with running := some (t, k, rest) }, [])

/-- The next socket operation of a client. -/
def proceed (p : ProcId) (c : Client) : Client × List Event :=
  match c.running with
  | some (t, k, .call op rest) =>
      match perform c op with
      | some (answer, c') => resume p c' t k (rest answer)
      | none => (c, [])
  | _ => (c, [])

/-! ## Sessions -/

/-- One step of a session. A step that is not possible changes nothing. -/
inductive Input where
  | connect (addr : SocketAddr)
  | call (p : ProcId) (t : RequestType) (k : KeyId)
  | proceed (p : ProcId)
  /-- The registry reads the next message of `p`. -/
  | serve (p : ProcId) (iter : SetIter ProcId)

/-- The registry takes a step, and what it writes gets to the clients. -/
def react (s : Session) (input : RegistryServer.Input Message) :
    Session × List (TcpStream × Message) :=
  let r := RegistryServer.step Serde.direct s.registry input
  let written := r.2.flatMap RegistryServer.Served.written
  (⟨r.1, fun p => (s.clients p).map fun c => { c with inbox := c.inbox ++ sentTo p written }⟩,
    written)

/-- Put a client in its place. -/
def setClient (s : Session) (p : ProcId) (c : Option Client) : Session :=
  { s with clients := Function.update s.clients p c }

@[simp] theorem setClient_clients (s : Session) (p : ProcId) (c : Option Client) :
    (s.setClient p c).clients = Function.update s.clients p c := rfl

@[simp] theorem setClient_registry (s : Session) (p : ProcId) (c : Option Client) :
    (s.setClient p c).registry = s.registry := rfl

def step (s : Session) : Input → Session × List Event
  | .connect addr =>
      let token := s.registry.nextToken
      let r := s.react (.connection (Env.calm .ascending) token addr)
      (r.1.setClient token (greet (sentTo token r.2)), r.2.map fun w => .sent w.1 w.2)
  | .call p t k =>
      match s.clients p with
      | some c =>
          if c.running.isNone then (s.setClient p (some (begin c t k)), [.called p t k])
          else (s, [])
      | none => (s, [])
  | .proceed p =>
      match s.clients p with
      | some c => (s.setClient p (some (proceed p c).1), (proceed p c).2)
      | none => (s, [])
  | .serve p iter =>
      match s.clients p with
      | some c =>
          match c.outbox with
          | message :: outbox =>
              -- under this token the registry reads the secondary server's socket, never `p`'s
              if p = s.registry.backupToken then (s, [])
              else
                let r := (s.setClient p (some { c with outbox })).react
                  (.readable (Env.calm iter) p (.data message))
                (r.1, .asked p message :: r.2.map fun w => .sent w.1 w.2)
          | [] => (s, [])
      | none => (s, [])

/-- Sessions with a registry that has just started. -/
def machine (secondaryServer : Option (SocketAddr × TcpStream)) :
    IOMachine Session Input Event where
  start := { registry := RegistryServer.new secondaryServer, clients := fun _ => none }
  step := step

end Session

end Soros
