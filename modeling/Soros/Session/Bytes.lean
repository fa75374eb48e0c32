import Soros.ProtocolClient.Framing
import Soros.Session.Basic

set_option autoImplicit false

/-! # Sessions on bytes

The sessions of `Session` once more, with bytes on the sockets. What is written on a socket comes
out of it in pieces that have nothing to do with the messages: `receive_message` takes them up in
`curr_data`, read by read, until it has a line, and the registry takes what its one `read` brings
for a message. -/

namespace Soros

/-- A client of the registry, with the bytes on its socket. -/
structure ByteClient where
  self : ProtocolClient
  running : Option (RequestType × KeyId × ProtocolClient.Method (Option SocketAddr))
  currData : Bytes
  /-- What the registry has sent and the client has not read. -/
  incoming : Bytes
  /-- What the client has sent and the registry has not read. -/
  outgoing : Bytes
  inside : KeyId → Option RequestType

structure ByteSession where
  registry : RegistryServer
  clients : ProcId → Option ByteClient

namespace ByteSession

open Session (Event learn)

/-! ## The steps of a client -/

/-- The reads of a client bring these bytes. -/
def Cut (reads : List Bytes) (bytes : Bytes) : Prop :=
  reads.flatten = bytes ∧ ∀ r ∈ reads, r ≠ [] ∧ r.length ≤ 32

instance (reads : List Bytes) (bytes : Bytes) : Decidable (Cut reads bytes) := by
  unfold Cut; infer_instance

/-- A client that has connected, and been sent what its first reads bring. -/
def greet (reads : List Bytes) : Option ByteClient :=
  match ProtocolClient.receive Serde.json ⟨reads.map .data, []⟩ with
  | some ⟨.ok message, left, _⟩ =>
      match ProtocolClient.new.runWith (Session.greeted message) with
      | .ok self => some {
          self, running := none, currData := left.currData, incoming := [], outgoing := []
          inside := fun _ => none }
      | .error _ => none
  | _ => none

/-- What a client has done of a socket operation. -/
inductive Performed (op : SocketOp) where
  | blocked
  /-- `receive_message` has read something, and no line so far. -/
  | going (c : ByteClient)
  | answered (answer : op.Result) (c : ByteClient)
  | panicked

def Performed.isBlocked {op : SocketOp} : Performed op → Bool
  | .blocked => true
  | .going _ | .answered _ _ | .panicked => false

/-- The client makes a system call, a `read` for one of at most `size` bytes. -/
def perform (c : ByteClient) (size : Nat) : (op : SocketOp) → Performed op
  | .call (.writeAll message) =>
      .answered (none : Option IoError)
        { c with outgoing := c.outgoing ++ Serde.json.toVec message }
  | .call .peek => if c.incoming = [] then .blocked else .answered (none : Option IoError) c
  | .call _ => .answered (none : Option IoError) c
  | .receive =>
      let bytes := c.incoming.take (min size 32)
      if bytes = [] then .blocked
      else
        let incoming := c.incoming.drop (min size 32)
        match ProtocolClient.receive Serde.json ⟨[.data bytes], c.currData⟩ with
        | none => .going { c with incoming, currData := c.currData ++ bytes }
        | some r =>
            match r.outcome with
            | .ok message =>
                .answered (.ok message : Except ProtocolClientError Message)
                  { c with incoming, currData := r.left.currData }
            | .err e =>
                .answered (.error e : Except ProtocolClientError Message)
                  { c with incoming, currData := r.left.currData }
            | .panic _ | .exit _ => .panicked

/-- A client starts a call. -/
def begin (c : ByteClient) (t : RequestType) (k : KeyId) : ByteClient :=
  { c with
    running := some (t, k, c.self.syncCall t k)
    inside := if t = .release then Function.update c.inside k none else c.inside }

/-- A client goes on with what is left of its call, and returns if nothing is. -/
def resume (p : ProcId) (c : ByteClient) (t : RequestType) (k : KeyId) :
    ProtocolClient.Method (Option SocketAddr) → ByteClient × List Event
  | .done r => ({ c with running := none, inside := learn c.inside t k r }, [.returned p t k r])
  | rest => ({ c with running := some (t, k, rest) }, [])

/-- The next system call of a client; a client that panics is gone. -/
def proceed (p : ProcId) (c : ByteClient) (size : Nat) : Option ByteClient × List Event :=
  match c.running with
  | some (t, k, .call op rest) =>
      match perform c size op with
      | .blocked => (some c, [])
      | .going c' => (some c', [])
      | .answered answer c' =>
          let r := resume p c' t k (rest answer)
          (some r.1, r.2)
      | .panicked => (none, [])
  | _ => (some c, [])

/-! ## Sessions -/

/-- One step of a session. A step that is not possible changes nothing. -/
inductive Input where
  /-- A client connects, and reads the greeting in these pieces. -/
  | connect (addr : SocketAddr) (reads : List Bytes)
  | call (p : ProcId) (t : RequestType) (k : KeyId)
  | proceed (p : ProcId) (size : Nat)
  /-- The registry reads at most `size` bytes of what `p` has sent. -/
  | serve (p : ProcId) (iter : SetIter ProcId) (size : Nat)

/-- What has been written on the socket of `p`. -/
def sentTo (p : ProcId) (written : List (TcpStream × Bytes)) : Bytes :=
  (written.filterMap fun w => if w.1 = p then some w.2 else none).flatten

/-- The registry takes a step, and what it writes gets to the clients. -/
def react (s : ByteSession) (input : RegistryServer.Input Bytes) :
    ByteSession × List (TcpStream × Bytes) :=
  let r := RegistryServer.step Serde.json s.registry input
  let written := r.2.flatMap RegistryServer.Served.written
  (⟨r.1, fun p => (s.clients p).map fun c =>
    { c with incoming := c.incoming ++ sentTo p written }⟩, written)

/-- Put a client in its place. -/
def setClient (s : ByteSession) (p : ProcId) (c : Option ByteClient) : ByteSession :=
  { s with clients := Function.update s.clients p c }

def step (s : ByteSession) : Input → ByteSession × List Event
  | .connect addr reads =>
      let token := s.registry.nextToken
      let r := s.react (.connection (Env.calm .ascending) token addr)
      if Cut reads (sentTo token r.2) then (r.1.setClient token (greet reads), []) else (s, [])
  | .call p t k =>
      match s.clients p with
      | some c =>
          if c.running.isNone then (s.setClient p (some (begin c t k)), [.called p t k])
          else (s, [])
      | none => (s, [])
  | .proceed p size =>
      match s.clients p with
      | some c => (s.setClient p (proceed p c size).1, (proceed p c size).2)
      | none => (s, [])
  | .serve p iter size =>
      match s.clients p with
      | some c =>
          let bytes := c.outgoing.take (min size 256)
          -- under this token the registry reads the secondary server's socket, never `p`'s
          if bytes = [] ∨ p = s.registry.backupToken then (s, [])
          else
            let c' := { c with outgoing := c.outgoing.drop (min size 256) }
            (((s.setClient p (some c')).react
              (.readable (Env.calm iter) p (.data bytes))).1, [])
      | none => (s, [])

/-- Sessions with a registry that has just started. -/
def machine (secondaryServer : Option (SocketAddr × TcpStream)) :
    IOMachine ByteSession Input Event where
  start := { registry := RegistryServer.new secondaryServer, clients := fun _ => none }
  step := step

end ByteSession

end Soros
