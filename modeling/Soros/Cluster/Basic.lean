import Soros.ProtocolClient.Invocation
import Soros.RegistryServer.Tracking

set_option autoImplicit false

/-! # Two registries and their clients

A primary registry, the secondary one to which it forwards what it handles, and any number of
clients. A client connects to the primary or, if it does not reach it, to the secondary, and it
may leave the primary in any of its calls through `switch_to_secondary`. Any operation of a
client and any system call of a registry may fail at any time, and a registry that has exited
or panicked does nothing any more.

Sockets have numbers of their own, and a new connection has to be accepted. What is written to
a socket stays there until it is read, also after the client has left. Each request in the mail
is marked with the call whose request it is and whether the client has sent it again; nothing is
computed from the marks. -/

namespace Soros

open RegistryServer (Tracked Delivery Served callOf)

inductive Side where
  | primary
  | secondary
  deriving DecidableEq

/-- A copy of the request of a call: the client, the number of the call, and whether the client
has sent it again, after a switch. -/
structure Copy where
  client : Nat
  call : Nat
  again : Bool
  deriving DecidableEq

/-- A message on its way to a registry. -/
structure Parcel where
  socket : TcpStream
  message : Message
  copy : Option Copy
  deriving DecidableEq

inductive Activity where
  /-- In `ProtocolClient::new`. -/
  | joining (rest : ProtocolClient.Method ProtocolClient)
  | idle (self : ProtocolClient)
  | calling (self : ProtocolClient) (rest : ProtocolClient.Method Invocation.Returned)

/-- A client of the registries. -/
structure Peer where
  activity : Activity
  /-- `registry_stream`. -/
  socket : Option TcpStream
  /-- How many calls it has started. -/
  calls : Nat
  /-- It has switched in the present call. -/
  switched : Bool

structure Cluster where
  servers : Side → Tracked TcpStream
  /-- The process is running. -/
  up : Side → Bool
  /-- Connections that have not been accepted, oldest first. -/
  backlog : Side → List TcpStream
  nextSocket : TcpStream
  peers : Nat → Option Peer
  /-- What has been sent to the registries and not been read, oldest first. -/
  mail : List Parcel
  /-- What the registries have written to a socket and the client has not read, oldest first. -/
  inbox : TcpStream → List Message

namespace Cluster

inductive Event where
  /-- A server has taken a step. -/
  | served (side : Side) (delivery : Delivery TcpStream)
  /-- A client has written a copy of its request. -/
  | wrote (copy : Copy)
  /-- The secondary server has passed a copy to its access manager, with effect or without. -/
  | handled (copy : Copy) (effective : Bool)

/-- The socket on which the primary server forwards. -/
def link : TcpStream := 0

/-! ## Clients -/

/-- A client has a new socket to a server. -/
def connect (s : Cluster) (side : Side) : Cluster :=
  { s with
    nextSocket := s.nextSocket + 1
    backlog := Function.update s.backlog side (s.backlog side ++ [s.nextSocket]) }

/-- The answer to a socket operation, and the client, the cluster and the log after it; `none`
while it blocks. With a `failure` it fails. -/
def perform (s : Cluster) (a : Nat) (peer : Peer) (failure : Option IoError) :
    (op : SocketOp) → Option (op.Result × Peer × Cluster × List Event)
  | .call call =>
      match failure with
      | some e => some (some e, peer, s, [])
      | none =>
          match call with
          | .connectPrimary =>
              if s.up .primary then
                some ((none : Option IoError), { peer with socket := some s.nextSocket },
                  s.connect .primary, [])
              else none
          | .connectSecondary =>
              if s.up .secondary then
                some ((none : Option IoError),
                  { peer with socket := some s.nextSocket, switched := true },
                  s.connect .secondary, [])
              else none
          | .setReadTimeout | .setWriteTimeout => some ((none : Option IoError), peer, s, [])
          | .writeAll message =>
              peer.socket.map fun socket =>
                let copy : Copy := ⟨a, peer.calls, peer.switched⟩
                ((none : Option IoError), peer,
                  { s with mail := s.mail ++ [⟨socket, message, some copy⟩] }, [.wrote copy])
          | .peek =>
              peer.socket.bind fun socket =>
                if s.inbox socket = [] then none else some ((none : Option IoError), peer, s, [])
  | .receive =>
      match failure with
      | some e => some ((.error (.ioError e) : Except ProtocolClientError Message), peer, s, [])
      | none =>
          peer.socket.bind fun socket =>
            match s.inbox socket with
            | [] => none
            | message :: rest => some ((.ok message : Except ProtocolClientError Message), peer,
                { s with inbox := Function.update s.inbox socket rest }, [])

/-- What a client does after an operation of `ProtocolClient::new`; `none` if that has failed. -/
def joined : ProtocolClient.Method ProtocolClient → Option Activity
  | .done (.ok self) => some (.idle self)
  | .done (.error _) => none
  | rest => some (.joining rest)

/-- What a client does after an operation of a call. -/
def called (self : ProtocolClient) : ProtocolClient.Method Invocation.Returned → Activity
  | .done _ => .idle self
  | rest => .calling self rest

/-- Put a client in its place. -/
def setPeer (s : Cluster) (a : Nat) (peer : Option Peer) : Cluster :=
  { s with peers := Function.update s.peers a peer }

/-- The next socket operation of a client. -/
def proceed (s : Cluster) (a : Nat) (peer : Peer) (failure : Option IoError) :
    Cluster × List Event :=
  match peer.activity with
  | .joining (.call op rest) =>
      match s.perform a peer failure op with
      | some (answer, peer', s', events) =>
          (s'.setPeer a ((joined (rest answer)).map fun activity => { peer' with activity }), events)
      | none => (s, [])
  | .calling self (.call op rest) =>
      match s.perform a peer failure op with
      | some (answer, peer', s', events) =>
          (s'.setPeer a (some { peer' with activity := called self (rest answer) }), events)
      | none => (s, [])
  | _ => (s, [])

/-! ## Servers -/

/-- The process does not go on after a step that ends like this: it has exited or panicked, or
`bind` has returned. -/
def ends (record : Served Message) : Bool :=
  match record.input, record.outcome with
  | _, .ok _ => false
  | .readable _ _ _, .err e => e == .stopRequest
  | _, _ => true

/-- A server takes a step; `copy` marks what it reads. The secondary server has no backup. -/
def react (s : Cluster) (side : Side) (input : RegistryServer.Input Message) (copy : Option Copy) :
    Cluster × Delivery TcpStream :=
  let r := (s.servers side).step id input
  let records := (RegistryServer.step Serde.direct (s.servers side).server input).2
  let forwarded := match side with
    | .primary => r.2.forwarded
    | .secondary => []
  ({ s with
      servers := Function.update s.servers side r.1
      up := Function.update s.up side (s.up side && !records.any ends)
      mail := s.mail ++ forwarded.map fun message => ⟨link, message, copy⟩
      inbox := fun socket => s.inbox socket
        ++ r.2.written.filterMap fun w => if w.1 = socket then some w.2 else none },
    r.2)

/-- The access manager does what the request asks for, or queues it. -/
def effective (s : RegistryServer) : RegistryServer.Input Message → Bool
  | .readable env _ (.data (.registry (.request p t k))) =>
      match (((callOf p t k).invoke env.iter).run s.accessManager).1 with
      | .ok _ => true
      | .err (.requestAccess _ _) => true
      | _ => false
  | _ => false

/-- Take the oldest message on a socket out of the mail. -/
def takeParcel (socket : TcpStream) : List Parcel → Option (Parcel × List Parcel)
  | [] => none
  | parcel :: mail =>
      if parcel.socket = socket then some (parcel, mail)
      else (takeParcel socket mail).map fun r => (r.1, parcel :: r.2)

/-- One step. A step that is not possible changes nothing. -/
inductive Input where
  /-- A new client starts. -/
  | join (a : Nat)
  | call (a : Nat) (invocation : Invocation)
  | proceed (a : Nat) (failure : Option IoError)
  | accept (side : Side) (env : Env) (addr : SocketAddr)
  /-- The server reads the next message on a socket. -/
  | read (side : Side) (token : Token) (env : Env)
  /-- The server finds a connection at its end, or reading it fails. -/
  | hangup (side : Side) (token : Token) (env : Env) (failure : Option IoError)

/-- The step of a server that an input stands for, with the mark of what it reads, and the
cluster without what it takes. -/
def reaction (s : Cluster) :
    Input → Option (Cluster × Side × RegistryServer.Input Message × Option Copy)
  | .accept side env addr =>
      match s.up side, s.backlog side with
      | true, socket :: rest =>
          some ({ s with backlog := Function.update s.backlog side rest }, side,
            .connection env socket addr, none)
      | _, _ => none
  | .read side token env =>
      match s.up side, (s.servers side).server.tokenStreamMap token with
      | true, some socket =>
          -- under this token the primary server reads the secondary server's socket
          if token = (s.servers side).server.backupToken then none
          else (takeParcel socket s.mail).map fun r => ({ s with mail := r.2 }, side,
            .readable env token (.data r.1.message), r.1.copy)
      | _, _ => none
  | .hangup side token env failure =>
      if s.up side then
        some (s, side, .readable env token (match failure with
          | none => .eof
          | some e => .failed e), none)
      else none
  | _ => none

/-- The request that the secondary server passes to its access manager. -/
def handled (server : RegistryServer) :
    Side → RegistryServer.Input Message → Option Copy → List Event
  | .secondary, .readable env token (.data (.registry (.request p t k))), some copy =>
      [.handled copy (effective server (.readable env token (.data (.registry (.request p t k)))))]
  | _, _, _ => []

/-- A server takes the step that an input stands for. -/
def serve (s : Cluster) (input : Input) : Cluster × List Event :=
  match s.reaction input with
  | some (s', side, i, copy) =>
      let r := s'.react side i copy
      (r.1, .served side r.2 :: handled (s'.servers side).server side i copy)
  | none => (s, [])

def step (s : Cluster) (input : Input) : Cluster × List Event :=
  match input with
  | .join a =>
      match s.peers a with
      | none => (s.setPeer a (some ⟨.joining ProtocolClient.new, none, 0, false⟩), [])
      | some _ => (s, [])
  | .call a invocation =>
      match s.peers a with
      | some ⟨.idle self, socket, calls, _⟩ =>
          (s.setPeer a (some ⟨.calling self (invocation.method self), socket, calls + 1, false⟩), [])
      | _ => (s, [])
  | .proceed a failure =>
      match s.peers a with
      | some peer => s.proceed a peer failure
      | none => (s, [])
  | input => s.serve input

/-! ## What a client changes -/

/-- With this answer the operation has switched the client or written a message. -/
def Counts : (op : SocketOp) → op.Result → Prop
  | .call .connectSecondary, none => True
  | .call (.writeAll _), none => True
  | _, _ => False

/-- What the operations of a client change. -/
inductive Performs (s : Cluster) (a : Nat) (peer : Peer) :
    (op : SocketOp) → op.Result → Peer → Cluster → List Event → Prop where
  | switched (socket : TcpStream) :
      Performs s a peer (.call .connectSecondary) (none : Option IoError)
        { peer with socket := some socket, switched := true } (s.connect .secondary) []
  | wrote (socket : TcpStream) (message : Message) :
      Performs s a peer (.call (.writeAll message)) (none : Option IoError) peer
        { s with mail := s.mail ++ [⟨socket, message, some ⟨a, peer.calls, peer.switched⟩⟩] }
        [.wrote ⟨a, peer.calls, peer.switched⟩]
  | other {op : SocketOp} {answer : op.Result} {peer' : Peer} {s' : Cluster}
      (hop : ¬ Counts op answer) (hcalls : peer'.calls = peer.calls)
      (hswitched : peer'.switched = peer.switched) (hservers : s'.servers = s.servers)
      (hpeers : s'.peers = s.peers) (hmail : s'.mail = s.mail) :
      Performs s a peer op answer peer' s' []

theorem perform_performs {s s' : Cluster} {a : Nat} {peer peer' : Peer} {failure : Option IoError}
    {op : SocketOp} {answer : op.Result} {events : List Event}
    (h : s.perform a peer failure op = some (answer, peer', s', events)) :
    Performs s a peer op answer peer' s' events := by
  cases op with
  | call call =>
      cases failure with
      | some e =>
          cases h
          exact .other (by cases call <;> exact id) rfl rfl rfl rfl rfl
      | none =>
          cases call with
          | connectPrimary =>
              dsimp only [perform] at h
              split at h
              · cases h
                exact .other id rfl rfl rfl rfl rfl
              · cases h
          | connectSecondary =>
              dsimp only [perform] at h
              split at h
              · cases h
                exact .switched _
              · cases h
          | setReadTimeout | setWriteTimeout =>
              cases h
              exact .other id rfl rfl rfl rfl rfl
          | writeAll message =>
              obtain ⟨socket, -, heq⟩ := Option.map_eq_some_iff.1 h
              cases heq
              exact .wrote socket message
          | peek =>
              obtain ⟨socket, -, heq⟩ := Option.bind_eq_some_iff.1 h
              split at heq
              · cases heq
              · cases heq
                exact .other id rfl rfl rfl rfl rfl
  | receive =>
      cases failure with
      | some e =>
          cases h
          exact .other id rfl rfl rfl rfl rfl
      | none =>
          obtain ⟨socket, -, heq⟩ := Option.bind_eq_some_iff.1 h
          split at heq
          · cases heq
          · cases heq
            exact .other id rfl rfl rfl rfl rfl

theorem Performs.unserved {s s' : Cluster} {a : Nat} {peer peer' : Peer} {op : SocketOp}
    {answer : op.Result} {events : List Event} (h : Performs s a peer op answer peer' s' events) :
    s'.servers = s.servers ∧ ∀ side d, .served side d ∉ events := by
  cases h with
  | switched => exact ⟨rfl, by simp⟩
  | wrote => exact ⟨rfl, by simp⟩
  | other _ _ _ hservers => exact ⟨hservers, by simp⟩

/-- A client proceeds with an operation and is put in its place. -/
theorem proceed_performs (s : Cluster) (a : Nat) (peer : Peer) (failure : Option IoError) :
    s.proceed a peer failure = (s, []) ∨
    ∃ (op : SocketOp) (answer : op.Result) (peer' : Peer) (s' : Cluster) (events : List Event)
      (next : Option Peer), Performs s a peer op answer peer' s' events ∧
      s.proceed a peer failure = (s'.setPeer a next, events) := by
  unfold proceed
  split
  · split
    · rename_i hp
      exact Or.inr ⟨_, _, _, _, _, _, perform_performs hp, rfl⟩
    · exact Or.inl rfl
  · split
    · rename_i hp
      exact Or.inr ⟨_, _, _, _, _, _, perform_performs hp, rfl⟩
    · exact Or.inl rfl
  · exact Or.inl rfl

/-! ## What a server takes -/

/-- The step that an input stands for: the servers and the clients are as they were, and what is
read comes out of the mail with its mark. -/
structure Takes (s s' : Cluster) (i : RegistryServer.Input Message) (copy : Option Copy) : Prop where
  servers : s'.servers = s.servers
  peers : s'.peers = s.peers
  mail : copy = none ∧ s'.mail = s.mail ∨ ∃ env token socket parcel,
    i = .readable env token (.data parcel.message) ∧ copy = parcel.copy ∧
    takeParcel socket s.mail = some (parcel, s'.mail)

theorem reaction_takes {s s' : Cluster} {input : Input} {side : Side}
    {i : RegistryServer.Input Message} {copy : Option Copy}
    (h : s.reaction input = some (s', side, i, copy)) : Takes s s' i copy := by
  cases input with
  | join | call | proceed => cases h
  | accept side env addr =>
      dsimp only [reaction] at h
      split at h
      · cases h
        exact ⟨rfl, rfl, Or.inl ⟨rfl, rfl⟩⟩
      · cases h
  | read side token env =>
      dsimp only [reaction] at h
      split at h
      · rename_i socket _ _
        split at h
        · cases h
        · obtain ⟨⟨parcel, mail⟩, hparcel, heq⟩ := Option.map_eq_some_iff.1 h
          cases heq
          exact ⟨rfl, rfl, Or.inr ⟨env, token, socket, parcel, rfl, rfl, hparcel⟩⟩
      · cases h
  | hangup side token env failure =>
      dsimp only [reaction] at h
      split at h
      · cases h
        exact ⟨rfl, rfl, Or.inl ⟨rfl, rfl⟩⟩
      · cases h

/-- The two servers have started, and the primary server has connected to the secondary one. -/
def machine (backupAddr : SocketAddr) : IOMachine Cluster Input Event where
  start :=
    { servers := fun
        | .primary => ⟨RegistryServer.new (some (backupAddr, link)), fun _ => [], []⟩
        | .secondary => ⟨RegistryServer.new none, fun _ => [], []⟩
      up := fun _ => true
      backlog := fun
        | .primary => []
        | .secondary => [link]
      nextSocket := link + 1
      peers := fun _ => none
      mail := []
      inbox := fun _ => [] }
  step := step

end Cluster

end Soros
