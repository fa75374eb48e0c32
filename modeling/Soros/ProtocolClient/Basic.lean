import Soros.Lib.Prog
import Soros.RegistryServer.Basic

set_option autoImplicit false

/-! # The protocol client

`protocol_client.rs` as far as it talks to the registries, method by method. A method is a
program over the operations on the registry's socket, which the network answers. -/

namespace Soros

inductive ProtocolClientError where
  | ioError (e : IoError)
  | serializationError (text : String)
  | registryError (text : String)
  | unexpectedResponse
  | waitError (keyId : KeyId)
  | noBackupServer
  deriving DecidableEq, Repr

/-- The texts of `#[error(..)]`. -/
def ProtocolClientError.text : ProtocolClientError → String
  | .ioError e => s!"IO error: {e.text}"
  | .serializationError text => s!"Serialization error: {text}"
  | .registryError text => s!"Registry error: {text}"
  | .unexpectedResponse => "Unexpected response"
  | .waitError keyId => s!"Wait error for key id: {keyId}"
  | .noBackupServer => "No backup server available"

/-- System calls on sockets; `none` is success. All but the two `connect`s are on
`registry_stream`, and of the bytes that `peek` finds nothing is looked at. -/
inductive SocketCall where
  /-- Connect to the primary server and make this the registry's stream. -/
  | connectPrimary
  /-- Connect to the secondary server and make this the registry's stream. -/
  | connectSecondary
  | setReadTimeout
  | setWriteTimeout
  | writeAll (message : Message)
  | peek
  deriving DecidableEq, Repr

/-- What the methods do with the registry's socket. -/
inductive SocketOp where
  | call (c : SocketCall)
  /-- `receive_message`. -/
  | receive
  deriving DecidableEq, Repr

def SocketOp.Result : SocketOp → Type
  | .call _ => Option IoError
  | .receive => Except ProtocolClientError Message

structure ProtocolClient where
  isPrimary : Bool
  procId : ProcId
  deriving DecidableEq, Repr

namespace ProtocolClient

/-- Methods of the client. -/
abbrev Method := Prog SocketOp SocketOp.Result ProtocolClientError

def perform (c : SocketCall) : Method (Option IoError) := Prog.perform (SocketOp.call c)

/-- A system call followed by `?`. -/
def io (c : SocketCall) : Method Unit := do
  match ← perform c with
  | none => pure ()
  | some e => Prog.throw (.ioError e)

def receiveMessage : Method Message := .call .receive .done

/-- Handle the initial connection to the registry, retrieving the process id. -/
def registryHandleConnection : Method ProcId := do
  match ← receiveMessage with
  | .registry (.connection procId) => pure procId
  | _ => Prog.throw .unexpectedResponse

def new : Method ProtocolClient := do
  let isPrimary ← match ← perform .connectPrimary with
    | none => pure true
    -- if the primary server is down, switch to the secondary server
    | some e =>
        match e.kind with
        | .connectionRefused | .connectionReset | .timedOut => do
            io .connectSecondary
            pure false
        | _ => Prog.throw (.ioError e)
  io .setReadTimeout
  io .setWriteTimeout
  let procId ← registryHandleConnection
  pure { isPrimary, procId }

/-- The process id that the secondary server sends is logged and dropped, like an error in
reading it. -/
def switchToSecondary : Method Unit := do
  io .connectSecondary
  let _procId : Except ProtocolClientError ProcId ← Prog.attempt registryHandleConnection
  io .setReadTimeout
  io .setWriteTimeout

variable (self : ProtocolClient)

/-- What `registry_send_request` does when the registry does not respond. -/
def resend (message : Message) : Method Unit := do
  -- if there is no backup server, return an error
  if !self.isPrimary then Prog.throw .noBackupServer else do
    switchToSecondary
    io (.writeAll message)

/-- Check if the connection is still active, once the message is written. -/
def confirmSent (message : Message) : Method Unit := do
  match ← perform .peek with
  | none => pure ()
  | some _ => resend self message

def registrySendRequest (keyId : KeyId) (requestType : RequestType) : Method Unit := do
  let message : Message := .registry (.request self.procId requestType keyId)
  match ← perform (.writeAll message) with
  | none => confirmSent self message
  | some _ => resend self message

def registryHandleResponse : Method RegistryResponse := do
  match ← Prog.attempt receiveMessage with
  | .ok (.registry (.response resp)) =>
      match resp with
      | .error err => Prog.throw (.registryError err)
      | .wait keyId => Prog.throw (.waitError keyId)
      | _ => pure resp
  | (_ : Except ProtocolClientError Message) => Prog.throw .unexpectedResponse

/-- Wait until read request is granted. -/
def registryAwaitRead : Method (KeyId × SocketAddr) := do
  match ← registryHandleResponse with
  | .holder keyId addr => pure (keyId, addr)
  | _ => Prog.throw .unexpectedResponse

/-- Wait until write request is granted. -/
def registryAwaitWrite : Method KeyId := do
  match ← registryHandleResponse with
  | .success keyId => pure keyId
  | _ => Prog.throw .unexpectedResponse

/-- Expect a success response from the registry for the specified key. -/
def registryExpectSuccess (keyId : KeyId) : Method Unit := do
  match ← registryHandleResponse with
  | .success respKeyId =>
      if keyId = respKeyId then pure () else Prog.throw .unexpectedResponse
  | _ => Prog.throw .unexpectedResponse

/-- Send a create request to the registry. -/
def registryCreate (keyId : KeyId) : Method Unit := do
  registrySendRequest self keyId .create
  registryExpectSuccess keyId

/-- Send a delete request to the registry. -/
def registryDelete (keyId : KeyId) : Method Unit := do
  registrySendRequest self keyId .delete
  registryExpectSuccess keyId

/-- Send a read request to the registry. -/
def registryRead (keyId : KeyId) : Method Unit := registrySendRequest self keyId .read

/-- Send a stop request to the registry, for testing purpose. -/
def registryStop : Method Unit := io (.writeAll (.registry .stopRequest))

/-- Send a write request to the registry. -/
def registryWrite (keyId : KeyId) : Method Unit := registrySendRequest self keyId .write

/-- Send a release request to the registry. -/
def registryRelease (keyId : KeyId) : Method Unit := do
  registrySendRequest self keyId .release
  registryExpectSuccess keyId

/-- The grant that follows a `Wait` for the key. -/
def awaitReadGrant (keyId : KeyId) : Method (KeyId × SocketAddr) := do
  let res ← registryAwaitRead
  if keyId ≠ res.1 then Prog.throw .unexpectedResponse else pure res

/-- The rest of `registry_read_sync`, once the request is sent. -/
def awaitReadSync : Method SocketAddr := do
  let res ← match ← Prog.attempt registryAwaitRead with
    | .error (.waitError keyId) => awaitReadGrant keyId
    | .error e => Prog.throw e
    | .ok res => pure res
  pure res.2

/-- Send a read request to the registry, wait until it's granted. -/
def registryReadSync (keyId : KeyId) : Method SocketAddr := do
  registryRead self keyId
  awaitReadSync

/-- The grant that follows a `Wait` for the key. -/
def awaitWriteGrant (keyId : KeyId) : Method KeyId := do
  let resKeyId ← registryAwaitWrite
  if keyId ≠ resKeyId then Prog.throw .unexpectedResponse else pure resKeyId

/-- The rest of `registry_write_sync`, once the request is sent. -/
def awaitWriteSync : Method Unit := do
  let _res ← match ← Prog.attempt registryAwaitWrite with
    | .error (.waitError keyId) => awaitWriteGrant keyId
    | .error e => Prog.throw e
    | .ok res => pure res
  pure ()

/-- Send a write request to the registry, wait until it's granted. -/
def registryWriteSync (keyId : KeyId) : Method Unit := do
  registryWrite self keyId
  awaitWriteSync

/-- The synchronous method that sends a request of this type; `registry_read_sync` alone has a
result. -/
def syncCall (requestType : RequestType) (keyId : KeyId) : Method (Option SocketAddr) :=
  match requestType with
  | .create => do registryCreate self keyId; pure none
  | .delete => do registryDelete self keyId; pure none
  | .read => do let addr ← registryReadSync self keyId; pure (some addr)
  | .write => do registryWriteSync self keyId; pure none
  | .release => do registryRelease self keyId; pure none

end ProtocolClient

end Soros
