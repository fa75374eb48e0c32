import Soros.P2PServer.Runs
import Soros.ProtocolClient.PeerRead
import Soros.Session.Basic

set_option autoImplicit false

/-! # Clients that share their data

Every client of a registry has data of its own and a server that offers it to the others, as in
`p2p_client1` and `p2p_client2`. A client reads the data of a key from the client that has it,
its home, by `p2p_read`. The registry, the clients, their servers and what is on the way are one
system, whose steps are interleaved in any order.

To the session are added the runs of the servers and the reads in progress. A read is what
`p2p_read` does between two system calls: it has connected and sent its request, which the server
of the home accepts, reads and answers; then its one `read` takes what has come of the answer. -/

namespace Soros

/-- A `p2p_read` that waits for the answer. -/
structure PeerRead where
  home : ProcId
  keyId : KeyId
  stream : TcpStream
  /-- The token of the connection at the home, once it has been accepted. -/
  token : Option Token
  /-- What has been sent to the home and not read there. -/
  request : Bytes
  /-- What the home has sent. -/
  answer : Bytes

structure Peers where
  session : Session
  servers : ProcId → P2PServer.Bind
  reads : ProcId → Option PeerRead
  /-- Connections that have been closed, unnoticed by the servers so far. -/
  closed : List (ProcId × Token)
  /-- The number of the next connection. -/
  nextStream : TcpStream

namespace Peers

inductive Event where
  | session (e : Session.Event)
  /-- What has happened at the server of `q`. -/
  | server (q : ProcId) (e : P2PServer.Event Bytes)
  /-- A `p2p_read` of `p` from `q` has come to its end. -/
  | read (p q : ProcId) (k : KeyId) (result : Outcome ProtocolClientError String)

/-- A step that is not possible changes nothing. -/
inductive Input where
  | session (i : Session.Input)
  /-- `q` calls a method of its data store. -/
  | store (q : ProcId) (c : DataStore.Call)
  /-- `p` calls `p2p_read` for data of `q`. -/
  | read (p q : ProcId) (k : KeyId)
  /-- The server of the home accepts the connection of `p`. -/
  | accept (p : ProcId) (env : P2PServer.Env)
  /-- The server of the home reads the request of `p`. -/
  | answer (p : ProcId) (env : P2PServer.Env)
  /-- The one `read` of `p` returns, and with it `p2p_read`. -/
  | receive (p : ProcId) (read : ReadResult Bytes)
  /-- The server of `q` notices that a connection has been closed. -/
  | hangUp (q : ProcId) (token : Token)

/-- A step of the server of `q`. -/
def serve (s : Peers) (q : ProcId) (i : P2PServer.Input Bytes) : Peers × List Event :=
  let r := P2PServer.step Serde.json (s.servers q) i
  ({ s with servers := Function.update s.servers q r.1 }, r.2.map (.server q))

/-- Put a read in its place. -/
def setRead (s : Peers) (p : ProcId) (r : Option PeerRead) : Peers :=
  { s with reads := Function.update s.reads p r }

/-- The call is one of a client that is in `p2p_read`, which borrows it. -/
def borrowed (s : Peers) : Session.Input → Bool
  | .call p _ _ => (s.reads p).isSome
  | _ => false

/-- `p` can call `p2p_read`. -/
def idle (s : Peers) (p : ProcId) : Bool :=
  (s.reads p).isNone && (s.session.clients p).any fun c => c.running.isNone

/-- `p2p_read` up to its `read`. -/
def dial (q : ProcId) (k : KeyId) (stream : TcpStream) : PeerRead where
  home := q
  keyId := k
  stream := stream
  token := none
  request :=
    ((ProtocolClient.p2pRead Serde.json (ProtocolClient.received false []) k).run []).2.flatten
  answer := []

/-- What has been written on the connection in a step. -/
def arrived (stream : TcpStream) (events : List Event) : Bytes :=
  events.flatMap fun
    | .server _ (.read _ _ written) => written.flatMap fun w => if w.1 = stream then w.2 else []
    | _ => []

/-- What the `read` of a buffer of 256 bytes can return: some of what has come, or, when the
connection breaks, nothing of it. -/
def receives (answer : Bytes) : ReadResult Bytes → Bool
  | .data data => !data.isEmpty && decide (data.length ≤ 256) && data.isPrefixOf answer
  | .eof | .failed _ => true

def step (s : Peers) : Input → Peers × List Event
  | .session i =>
      if s.borrowed i then (s, [])
      else ({ s with session := (s.session.step i).1 }, (s.session.step i).2.map .session)
  | .store q c => s.serve q (.store c)
  | .read p q k =>
      if s.idle p then
        ({ s.setRead p (some (dial q k s.nextStream)) with nextStream := s.nextStream + 1 }, [])
      else (s, [])
  | .accept p env =>
      match s.reads p with
      | some r =>
          if r.token.isNone then
            let s' := s.serve r.home (.connection env r.stream)
            (s'.1.setRead p (some { r with
              token := some (s'.1.servers r.home).server.tokenCounter }), s'.2)
          else (s, [])
      | none => (s, [])
  | .answer p env =>
      match s.reads p with
      | some r =>
          match r.token, r.request with
          | some token, _ :: _ =>
              let s' := s.serve r.home (.readable env token (.data r.request))
              (s'.1.setRead p (some { r with
                request := [], answer := arrived r.stream s'.2 }), s'.2)
          | _, _ => (s, [])
      | none => (s, [])
  | .receive p read =>
      match s.reads p with
      | some r =>
          if receives r.answer read then
            let result :=
              ((ProtocolClient.p2pRead Serde.json ⟨none, none, read, false⟩ r.keyId).run []).1
            ({ s.setRead p none with
                closed := s.closed ++ (r.token.map fun token => (r.home, token)).toList },
              [.read p r.home r.keyId result])
          else (s, [])
      | none => (s, [])
  | .hangUp q token =>
      if (q, token) ∈ s.closed then
        let s' := s.serve q (.readable .calm token .eof)
        ({ s'.1 with closed := s.closed.erase (q, token) }, s'.2)
      else (s, [])

/-- Clients of a registry that has just started, whose data stores are empty. -/
def machine (secondaryServer : Option (SocketAddr × TcpStream)) (peerAddr : ProcId → SocketAddr) :
    IOMachine Peers Input Event where
  start := {
    session := (Session.machine secondaryServer).start
    servers := fun q => (P2PServer.bind Serde.json (peerAddr q)).start
    reads := fun _ => none
    closed := []
    nextStream := 0 }
  step := step

end Peers

end Soros
