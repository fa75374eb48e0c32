import Soros.RegistryServer.Basic

set_option autoImplicit false

/-! # The peer-to-peer server

`p2p_server.rs`, method by method: a client offers the data of its keys to the others. As for the
registry, the encoding, the ends of the system calls and what a `read` returns are parameters,
and a method is a computation over the server and what it has written in the present step. -/

namespace Soros

/-! ## The data -/

inductive DataStoreError where
  | ioError (e : IoError)
  | keyAlreadyExists (keyId : KeyId)
  | keyDoesNotExists (keyId : KeyId)
  deriving DecidableEq, Repr

/-- The texts of `#[error(..)]`. -/
def DataStoreError.text : DataStoreError → String
  | .ioError e => s!"IO error: {e.text}"
  | .keyAlreadyExists keyId => s!"Key '{keyId}' already exist!"
  | .keyDoesNotExists keyId => s!"Key '{keyId}' not exist!"

/-- The data of a client by key. The mutexes of the source are never poisoned: nothing panics
while it holds one. -/
structure DataStore where
  dataMap : KeyId → Option String

namespace DataStore

def new : DataStore := ⟨fun _ => none⟩

abbrev Method := Exec DataStore DataStoreError

def create (key : KeyId) (data : String) : Method Unit :=
  Exec.modify fun self => ⟨Function.update self.dataMap key (some data)⟩

def write (key : KeyId) (newData : String) : Method Unit := do
  match (← Exec.get).dataMap key with
  | none => Exec.throw (.keyDoesNotExists key)
  | some _ => Exec.modify fun self => ⟨Function.update self.dataMap key (some newData)⟩

def delete (key : KeyId) : Method Unit :=
  Exec.modify fun self => ⟨Function.update self.dataMap key none⟩

def get (key : KeyId) : Method String := do
  match (← Exec.get).dataMap key with
  | none => Exec.throw (.keyDoesNotExists key)
  | some data => pure data

end DataStore

/-! ## The server -/

inductive P2PServerError where
  | ioError (e : IoError)
  | threadPoolError (text : String)
  | serdeError (text : String)
  | dataStore (e : DataStoreError)
  | unexpectedRequest
  | unexpectedResponse
  | invalidToken (token : Token)
  deriving DecidableEq, Repr

/-- The texts of `#[error(..)]`. -/
def P2PServerError.text : P2PServerError → String
  | .ioError e => s!"IO error: {e.text}"
  | .threadPoolError text => s!"ThreadPool error: {text}"
  | .serdeError text => s!"Serde error: {text}"
  | .dataStore e => s!"DataStore error: {e.text}"
  | .unexpectedRequest => "Unexpected request"
  | .unexpectedResponse => "Unexpected response"
  | .invalidToken token => s!"Invalid Token({token})"

structure P2PServer where
  peerAddr : SocketAddr
  dataStore : DataStore
  tokenStreamMap : Token → Option TcpStream
  tokenCounter : Nat

/-- A server in the middle of a step, with what the step has written. -/
structure P2PHost (Bytes : Type) where
  server : P2PServer
  written : List (TcpStream × Bytes)

namespace P2PServer

/-- How the system calls of one step end: `none` is success. -/
structure Env where
  register : Option IoError
  write : Option IoError

/-- Every call succeeds. -/
def Env.calm : Env := ⟨none, none⟩

def new (dataStore : DataStore) (peerAddr : SocketAddr) : P2PServer where
  peerAddr := peerAddr
  dataStore := dataStore
  tokenStreamMap := fun _ => none
  tokenCounter := 0

/-- Methods of the server. -/
abbrev Method (Bytes : Type) := Exec (P2PHost Bytes) P2PServerError

/-- The server at the beginning of a step. -/
def enter {Bytes : Type} (self : P2PServer) : P2PHost Bytes := ⟨self, []⟩

variable {Bytes : Type}

/-- Change the server. -/
def update (f : P2PServer → P2PServer) : Method Bytes Unit :=
  Exec.modify fun h => { h with server := f h.server }

/-- `self.poll.registry().register(..)?`. -/
def register (env : Env) : Method Bytes Unit :=
  match env.register with
  | none => pure ()
  | some e => Exec.throw (.ioError e)

def handleConnection (env : Env) (stream : TcpStream) : Method Bytes Unit := do
  update fun self => { self with tokenCounter := self.tokenCounter + 1 }
  let token := (← Exec.get).server.tokenCounter
  register env
  update fun self => { self with
    tokenStreamMap := Function.update self.tokenStreamMap token (some stream) }

/-- `self.data_store`. -/
def onDataStore {α : Type} (c : DataStore.Method α) : Method Bytes α :=
  (c.zoom (fun h : P2PHost Bytes => h.server.dataStore)
    (fun h d => { h with server := { h.server with dataStore := d } })).mapErr .dataStore

def handleMessage (message : Message) : Method Bytes DataMessage := do
  match message with
  | .data (.request keyId) => do
      let data ← onDataStore (DataStore.get keyId)
      pure (.response data)
  | _ => Exec.throw .unexpectedRequest

/-- `stream.write_all(&data)?`. -/
def writeAll (env : Env) (stream : TcpStream) (data : Bytes) : Method Bytes Unit :=
  match env.write with
  | none => Exec.modify fun h => { h with written := h.written ++ [(stream, data)] }
  | some e => Exec.throw (.ioError e)

variable (serde : Serde Bytes)

/-- `Message::from_slice(data)?`. The error branch prints the data, which panics unless it is
UTF-8. -/
def parse (data : Bytes) : Method Bytes Message :=
  match serde.fromSlice data with
  | .ok message => pure message
  | .error text =>
      if serde.isUtf8 data then Exec.throw (.serdeError text)
      else Exec.panic "called `Result::unwrap()` on an `Err` value"

def handleRequest (env : Env) (token : Token) (data : Bytes) : Method Bytes Unit := do
  let message ← parse serde data
  let response ← handleMessage message
  match (← Exec.get).server.tokenStreamMap token with
  | none => Exec.throw (.invalidToken token)
  | some stream => writeAll env stream (serde.toVec (.data response))

def removeStream (token : Token) : Method Bytes Unit :=
  update fun self => { self with tokenStreamMap := Function.update self.tokenStreamMap token none }

def handleData (env : Env) (token : Token) (read : ReadResult Bytes) : Method Bytes Unit := do
  match (← Exec.get).server.tokenStreamMap token with
  | none => Exec.panic "called `Option::unwrap()` on a `None` value"
  | some _ =>
      match read with
      | .eof => removeStream token
      | .data data => handleRequest serde env token data
      | .failed e =>
          match e.kind with
          | .connectionReset => do
              removeStream token
              Exec.throw (.ioError e)
          | .wouldBlock => pure ()
          | _ => Exec.throw (.ioError e)

/-! ## What the methods do -/

/-- What `handle_message` returns for data with the contents of the store. -/
def reply (d : DataStore) : Message → Outcome P2PServerError DataMessage
  | .data (.request keyId) =>
      match d.dataMap keyId with
      | none => .err (.dataStore (.keyDoesNotExists keyId))
      | some data => .ok (.response data)
  | _ => .err .unexpectedRequest

theorem handleMessage_run (message : Message) (h : P2PHost Bytes) :
    (handleMessage message).run h = (reply h.server.dataStore message, h) := by
  cases message with
  | registry => rfl
  | data message =>
      cases message with
      | response => rfl
      | request keyId =>
          unfold handleMessage reply
          dsimp only
          have hget : (DataStore.get keyId).run h.server.dataStore
              = (match h.server.dataStore.dataMap keyId with
                | none => .err (.keyDoesNotExists keyId)
                | some data => .ok data, h.server.dataStore) := by
            unfold DataStore.get
            rw [Exec.bind_ok (Exec.get_run _)]
            cases h.server.dataStore.dataMap keyId <;> rfl
          have hstore : (onDataStore (DataStore.get keyId)).run h
              = (Outcome.mapErr .dataStore (match h.server.dataStore.dataMap keyId with
                | none => .err (.keyDoesNotExists keyId)
                | some data => .ok data), h) := by
            unfold onDataStore
            rw [Exec.mapErr_run, Exec.zoom_run, hget]
          rw [Exec.bind_run, hstore]
          cases h.server.dataStore.dataMap keyId <;> rfl

theorem parse_run (data : Bytes) (h : P2PHost Bytes) :
    (parse serde data).run h = match serde.fromSlice data with
      | .ok message => (.ok message, h)
      | .error text =>
          if serde.isUtf8 data then (.err (.serdeError text), h)
          else (.panic "called `Result::unwrap()` on an `Err` value", h) := by
  unfold parse
  cases serde.fromSlice data with
  | ok message => rfl
  | error text =>
      dsimp only
      split <;> rfl

/-- A request for a key that is there is answered with its data. -/
theorem handleRequest_present {env : Env} (hwrite : env.write = none) {token : Token}
    {h : P2PHost Bytes} {stream : TcpStream} (hstream : h.server.tokenStreamMap token = some stream)
    {data : Bytes} {keyId : KeyId} (hparse : serde.fromSlice data = .ok (.data (.request keyId)))
    {value : String} (hvalue : h.server.dataStore.dataMap keyId = some value) :
    (handleRequest serde env token data).run h
      = (.ok (), { h with
          written := h.written ++ [(stream, serde.toVec (.data (.response value)))] }) := by
  have hread : (parse serde data).run h = (.ok (.data (.request keyId)), h) := by
    rw [parse_run, hparse]
  have hreply : (handleMessage (.data (.request keyId))).run h = (.ok (.response value), h) := by
    rw [handleMessage_run, reply, hvalue]
  unfold handleRequest
  rw [Exec.bind_ok hread, Exec.bind_ok hreply, Exec.bind_ok (Exec.get_run h), hstream]
  unfold writeAll
  rw [hwrite]
  rfl

/-- Nothing else that is read is answered, and nothing changes. -/
theorem handleRequest_other {env : Env} {token : Token} {h : P2PHost Bytes} {data : Bytes}
    (hother : ∀ keyId, serde.fromSlice data = .ok (.data (.request keyId)) →
      h.server.dataStore.dataMap keyId = none) :
    ((handleRequest serde env token data).run h).2 = h ∧
      ((handleRequest serde env token data).run h).1 ≠ .ok () := by
  unfold handleRequest
  rw [Exec.bind_run, parse_run]
  cases hparse : serde.fromSlice data with
  | error text =>
      dsimp only
      cases serde.isUtf8 data <;> exact ⟨rfl, by simp⟩
  | ok message =>
      dsimp only
      -- any other message is refused, and so is a request for a key that is not there
      have herr : ∃ e, reply h.server.dataStore message = .err e := by
        cases message with
        | registry => exact ⟨_, rfl⟩
        | data message =>
            cases message with
            | response => exact ⟨_, rfl⟩
            | request keyId => exact ⟨_, by rw [reply, hother keyId hparse]⟩
      obtain ⟨e, he⟩ := herr
      rw [Exec.bind_run, handleMessage_run, he]
      exact ⟨rfl, by simp⟩

end P2PServer

end Soros
