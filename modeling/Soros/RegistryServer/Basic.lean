import Soros.AccessManager.Basic
import Soros.Lib.Machine

set_option autoImplicit false

/-! # The registry server

`registry_server.rs`, method by method: a server that shares the access manager among its
clients and, if it is the primary, forwards what it handles to a secondary one. The two run
the same code.

What lies outside is a parameter. `Serde` is the encoding of messages, `Env` says how the
system calls of one step end, and a `read` of a socket is the argument of `handleData`. Each
method is a computation over `Host`: the server, and what it has written in the present step. -/

namespace Soros

/-- The number under which the poll knows a socket. Clients get their process id as token. -/
abbrev Token := Nat

/-- A TCP socket, known by a number of its own. -/
abbrev TcpStream := Nat

inductive ErrorKind where
  | connectionRefused
  | connectionReset
  | timedOut
  | wouldBlock
  | other
  deriving DecidableEq, Repr

/-- An error of the operating system and its text. -/
structure IoError where
  kind : ErrorKind
  text : String
  deriving DecidableEq, Repr

/-- `Message::to_vec` and `Message::from_slice` over buffers of type `Bytes`. Encoding a
message never fails, and decoding undoes it: in the source for identifiers that fit a `usize`, and
it has no others. -/
structure Serde (Bytes : Type) where
  toVec : Message → Bytes
  fromSlice : Bytes → Except String Message
  /-- `std::str::from_utf8` accepts the bytes. -/
  isUtf8 : Bytes → Bool
  fromSlice_toVec : ∀ message, fromSlice (toVec message) = .ok message

/-- Messages that stand for themselves. -/
def Serde.direct : Serde Message where
  toVec := id
  fromSlice := .ok
  isUtf8 := fun _ => true
  fromSlice_toVec := fun _ => rfl

inductive RegistryServerError where
  | ioError (e : IoError)
  | serializationError (text : String)
  | unexpectedRequest
  | accessManager (e : AccessManagerError)
  | invalidToken (token : Token)
  | unknownHolder (token : Token)
  | stopRequest
  deriving DecidableEq, Repr

/-- The texts of `#[error(..)]`. -/
def RegistryServerError.text : RegistryServerError → String
  | .ioError e => s!"IO error: {e.text}"
  | .serializationError text => s!"Serialization error: {text}"
  | .unexpectedRequest => "Unexpected request"
  | .accessManager e => s!"Access manager error: {e.text}"
  | .invalidToken token => s!"Invalid Token({token})"
  | .unknownHolder token => s!"Unknown data holder Token({token})"
  | .stopRequest => "Stop requested"

structure RegistryServer where
  backupAddr : Option SocketAddr
  backupStream : Option TcpStream
  backupToken : Token
  primaryToken : Token
  firstConnection : Bool
  accessManager : AccessManager
  tokenStreamMap : Token → Option TcpStream
  tokenAddrMap : Token → Option SocketAddr
  idCounter : ProcId
  requestCounter : Nat

/-- How the system calls of one step end: `none` is success. A `write_all` that fails has not
handed a whole message over. -/
structure Env where
  /-- How the readers of a key are walked. -/
  iter : SetIter ProcId
  register : Option IoError
  /-- A `write_all` on the socket of a client, if it is the `n`-th of the step. -/
  clientWrite : TcpStream → Nat → Option IoError
  /-- The `write_all` on the socket of the secondary server. -/
  backupWrite : Option IoError

/-- Every call succeeds. -/
def Env.calm (iter : SetIter ProcId) : Env where
  iter := iter
  register := none
  clientWrite := fun _ _ => none
  backupWrite := none

/-- What `read` returns on a socket: the end of the stream, bytes, or an error. -/
inductive ReadResult (Bytes : Type) where
  | eof
  | data (bytes : Bytes)
  | failed (e : IoError)

/-- A server in the middle of a step, with what the step has written to clients and forwarded,
how many writes to clients it has tried, and the messages that `handle_message` has been given.
The code keeps no account of these; only `writeAll` looks at one, to tell its writes apart. -/
structure Host (Bytes : Type) where
  server : RegistryServer
  written : List (TcpStream × Bytes)
  forwarded : List Bytes
  clientWrites : Nat
  handed : List Message

/-- `handle_message` is given a message. -/
def Host.gave {Bytes : Type} (h : Host Bytes) (message : Message) : Host Bytes :=
  { h with handed := h.handed ++ [message] }

@[simp] theorem Host.gave_server {Bytes : Type} (h : Host Bytes) (message : Message) :
    (h.gave message).server = h.server := rfl

namespace RegistryServer

/-- A server as `new` leaves it. The argument is the secondary server with the socket
connected to it; without one the server has no backup. -/
def new (secondaryServer : Option (SocketAddr × TcpStream)) : RegistryServer where
  backupAddr := secondaryServer.map Prod.fst
  backupStream := secondaryServer.map Prod.snd
  backupToken := 999
  primaryToken := 1000
  firstConnection := true
  accessManager := AccessManager.new
  tokenStreamMap := fun _ => none
  tokenAddrMap := fun _ => none
  idCounter := 0
  requestCounter := 0

/-- Methods of the server. -/
abbrev Method (Bytes : Type) := Exec (Host Bytes) RegistryServerError

variable {Bytes : Type}

/-- Change the server. -/
def update (f : RegistryServer → RegistryServer) : Method Bytes Unit :=
  Exec.modify fun h => { h with server := f h.server }

/-- `self.access_manager`. -/
def onManager {α : Type} (c : AccessManager.Method α) : Exec (Host Bytes) AccessManagerError α :=
  c.zoom (fun h => h.server.accessManager)
    (fun h m => { h with server := { h.server with accessManager := m } })

/-- Call a method of the access manager and look at its error. -/
def manager {α : Type} (c : AccessManager.Method α) : Method Bytes (Except AccessManagerError α) :=
  Exec.attempt (onManager c)

/-- `stream.write_all(&data)?` on the socket of a client. -/
def writeAll (env : Env) (stream : TcpStream) (data : Bytes) : Method Bytes Unit := do
  let h ← Exec.get
  Exec.modify fun h => { h with clientWrites := h.clientWrites + 1 }
  match env.clientWrite stream h.clientWrites with
  | none => Exec.modify fun h => { h with written := h.written ++ [(stream, data)] }
  | some e => Exec.throw (.ioError e)

/-- `self.poll.registry().register(..)?`. -/
def register (env : Env) : Method Bytes Unit :=
  match env.register with
  | none => pure ()
  | some e => Exec.throw (.ioError e)

/-- Forward socket to backup server. -/
def forwardRequest (env : Env) (data : Bytes) : Method Bytes Unit := do
  if (← Exec.get).server.backupStream.isSome then
    match env.backupWrite with
    | none => Exec.modify fun h => { h with forwarded := h.forwarded ++ [data] }
    | some e => Exec.throw (.ioError e)

variable (serde : Serde Bytes)

def handleConnection (env : Env) (stream : TcpStream) (addr : SocketAddr) : Method Bytes Unit := do
  let self := (← Exec.get).server
  -- for now, the primary server is whoever connects first
  if self.backupAddr.isNone && self.firstConnection then
    update fun self => { self with firstConnection := false }
    register env
    update fun self => { self with
      tokenStreamMap := Function.update self.tokenStreamMap self.primaryToken (some stream) }
  else
    update fun self => { self with idCounter := self.idCounter + 1 }
    let token := self.idCounter + 1
    register env
    writeAll env stream (serde.toVec (.registry (.connection token)))
    update fun self => { self with
      tokenStreamMap := Function.update self.tokenStreamMap token (some stream)
      tokenAddrMap := Function.update self.tokenAddrMap token (some addr) }
    forwardRequest env (serde.toVec (.registry (.connectionEstablished token)))

/-- The token that the next connection gets. -/
def nextToken (self : RegistryServer) : Token :=
  if self.backupAddr.isNone && self.firstConnection then self.primaryToken else self.idCounter + 1

def procIdToAddr (procId : ProcId) : Method Bytes SocketAddr := do
  match (← Exec.get).server.tokenAddrMap procId with
  | some addr => pure addr
  | none => Exec.throw (.unknownHolder procId)

def handleResponse (env : Env) (token : Token) (response : RegistryResponse) :
    Method Bytes Unit := do
  match (← Exec.get).server.tokenStreamMap token with
  | none => Exec.throw (.invalidToken token)
  | some stream => writeAll env stream (serde.toVec (.registry (.response response)))

def handleError (env : Env) (token : Token) (err : RegistryServerError) : Method Bytes Unit :=
  handleResponse serde env token (.error err.text)

/-- The requests that ask the access manager for something and get no data back. -/
def succeed (keyId : KeyId) (c : AccessManager.Method Unit) :
    Method Bytes (Except AccessManagerError RegistryResponse) := do
  match ← manager c with
  | .ok () => pure (.ok (.success keyId))
  | .error err => pure (.error err)

def handleMessage (env : Env) (message : Message) : Method Bytes RegistryResponse := do
  match message with
  | .registry .stopRequest => Exec.throw .stopRequest
  | .registry (.connectionEstablished _) => pure .ack
  | .registry (.request procId requestType keyId) =>
      let response ← match requestType with
        | .create => succeed keyId (AccessManager.create procId keyId)
        | .delete => succeed keyId (AccessManager.delete keyId)
        | .read => do
            match ← manager (AccessManager.read env.iter procId keyId) with
            | .ok holderId => do
                let addr ← procIdToAddr holderId
                pure (.ok (.holder keyId addr))
            | .error (.requestAccess _ keyId) => pure (.ok (.wait keyId))
            | .error err => pure (.error err)
        | .write => do
            match ← succeed keyId (AccessManager.write procId keyId) with
            | .error (.requestAccess _ _) => pure (.ok (.wait keyId))
            | err => pure err
        | .release => succeed keyId (AccessManager.release env.iter procId keyId)
      match response with
      | .ok response => pure response
      | .error err => Exec.throw (.accessManager err)
  | _ => Exec.throw .unexpectedRequest

/-- `Message::from_slice(data)?`. The error branch prints the data, which panics unless it is
UTF-8; errors are logged by the server binary. -/
def parse (data : Bytes) : Method Bytes Message :=
  match serde.fromSlice data with
  | .ok message => pure message
  | .error text =>
      if serde.isUtf8 data then Exec.throw (.serializationError text)
      else Exec.panic "called `Result::unwrap()` on an `Err` value"

/-- The response to a request that had to wait. -/
def grantResponse (a : AccessGranted) : Method Bytes RegistryResponse :=
  match a.2.2.1 with
  | .read => do
      let addr ← procIdToAddr a.2.2.2
      pure (.holder a.2.1 addr)
  | .write => pure (.success a.2.1)
  | _ => Exec.panic "internal error: entered unreachable code"

/-- Tell a process of its access; one that has gone is skipped. -/
def deliver (env : Env) (a : AccessGranted) : Method Bytes Unit := do
  let response ← grantResponse a
  match ← Exec.attempt (handleResponse serde env a.1 response) with
  | .error (.invalidToken _) => pure ()
  | .error err => Exec.throw err
  | .ok () => pure ()

/-- The loop of `handle_request` over the accesses granted to pending requests. -/
def grantPending (env : Env) : List AccessGranted → Method Bytes Unit
  | [] => pure ()
  | a :: requests => do
      deliver serde env a
      grantPending env requests

/-- Count the request; the primary server leaves after the first one. -/
def countRequest : Method Bytes Unit := do
  update fun self => { self with requestCounter := self.requestCounter + 1 }
  let self := (← Exec.get).server
  -- only if we're the primary server
  if self.backupStream.isSome && self.requestCounter == 1 then Exec.exit 0 else pure ()

/-- A message is passed to `handle_message`. -/
def note (message : Message) : Method Bytes Unit :=
  Exec.modify fun h => h.gave message

/-- The rest of `handle_request`, once `handle_message` has returned the response. -/
def completeRequest (env : Env) (token : Token) (data : Bytes) (response : RegistryResponse) :
    Method Bytes Unit := do
  handleResponse serde env token response
  -- check if we need to grant access to pending requests
  let requests ← (onManager AccessManager.tryIter).mapErr .accessManager
  grantPending serde env requests
  forwardRequest env data
  countRequest

def handleRequest (env : Env) (token : Token) (data : Bytes) : Method Bytes Unit := do
  let message ← parse serde data
  note message
  let response ← handleMessage env message
  completeRequest serde env token data response

def removeClient (token : Token) : Method Bytes Unit :=
  update fun self => { self with
    tokenStreamMap := Function.update self.tokenStreamMap token none
    tokenAddrMap := Function.update self.tokenAddrMap token none }

/-- Answer a request, errors included. -/
def serveRequest (env : Env) (token : Token) (data : Bytes) : Method Bytes Unit := do
  match ← Exec.attempt (handleRequest serde env token data) with
  | .error .stopRequest => Exec.throw .stopRequest
  | .error err => handleError serde env token err
  | .ok () => pure ()

/-- The end of `handle_data`, once the socket has been read. -/
def handleRead (env : Env) (token : Token) (isBackup : Bool) (read : ReadResult Bytes) :
    Method Bytes Unit :=
  match read with
  | .eof => if isBackup then pure () else removeClient token
  -- ignore responses from the secondary registry
  | .data data => if isBackup then pure () else serveRequest serde env token data
  | .failed e =>
      match e.kind with
      | .connectionReset => do
          removeClient token
          Exec.throw (.ioError e)
      | .wouldBlock => pure ()
      | _ => Exec.throw (.ioError e)

def handleData (env : Env) (token : Token) (read : ReadResult Bytes) : Method Bytes Unit := do
  let self := (← Exec.get).server
  let isBackup := token == self.backupToken
  match if isBackup then self.backupStream else self.tokenStreamMap token with
  | none => Exec.panic "called `Option::unwrap()` on a `None` value"
  | some _ => handleRead serde env token isBackup read

/-! ## Runs -/

/-- One step of the loop of `bind`: a connection accepted, or a readable socket with what
reading it returns. -/
inductive Input (Bytes : Type) where
  | connection (env : Env) (stream : TcpStream) (addr : SocketAddr)
  | readable (env : Env) (token : Token) (read : ReadResult Bytes)

def Input.handle : Input Bytes → Method Bytes Unit
  | .connection env stream addr => handleConnection serde env stream addr
  | .readable env token read => handleData serde env token read

/-- The record of a step: how it ended, and what it wrote and forwarded. -/
structure Served (Bytes : Type) where
  input : Input Bytes
  outcome : Outcome RegistryServerError Unit
  written : List (TcpStream × Bytes)
  forwarded : List Bytes

/-- The server at the beginning of a step. -/
def enter (s : RegistryServer) : Host Bytes := ⟨s, [], [], 0, []⟩

def step (s : RegistryServer) (i : Input Bytes) : RegistryServer × List (Served Bytes) :=
  let r := (i.handle serde).run s.enter
  (r.2.server, [⟨i, r.1, r.2.written, r.2.forwarded⟩])

/-- A server as a machine. It goes on after a step however the step ends: the runs of a
process that has returned, panicked or exited at some step are those that end there. -/
def machine (secondaryServer : Option (SocketAddr × TcpStream)) :
    IOMachine RegistryServer (Input Bytes) (Served Bytes) where
  start := new secondaryServer
  step := step serde

end RegistryServer

end Soros
