import Soros.RegistryServer.Spec

set_option autoImplicit false

/-! # The format of the messages does not matter

The protocol is proved on messages that stand for themselves (`Serde.direct`), the registry reads
and writes bytes. Whatever the format, it does the same on the bytes of messages as on the
messages: it ends up in the same state, and writes and forwards the bytes of what it would write
and forward (`machine_encode`). So what is proved on messages holds on any encoding that can be
decoded. -/

namespace Soros

namespace RegistryServer

variable {Bytes : Type} (serde : Serde Bytes)

/-- What a step has written, as bytes. -/
def Host.encode (h : Host Message) : Host Bytes where
  server := h.server
  written := h.written.map fun w => (w.1, serde.toVec w.2)
  forwarded := h.forwarded.map serde.toVec
  clientWrites := h.clientWrites
  handed := h.handed

/-- What is read, as bytes. -/
def ReadResult.encode : ReadResult Message → ReadResult Bytes
  | .eof => .eof
  | .data message => .data (serde.toVec message)
  | .failed e => .failed e

def Input.encode : Input Message → Input Bytes
  | .connection env stream addr => .connection env stream addr
  | .readable env token read => .readable env token (ReadResult.encode serde read)

def Served.encode (e : Served Message) : Served Bytes where
  input := Input.encode serde e.input
  outcome := e.outcome
  written := e.written.map fun w => (w.1, serde.toVec w.2)
  forwarded := e.forwarded.map serde.toVec

/-- The method does to bytes what the other does to messages. -/
abbrev Encodes {α : Type} (c : Method Message α) (c' : Method Bytes α) : Prop :=
  Exec.Maps (Host.encode serde) c c'

/-! ## The methods -/

theorem update_encodes (f : RegistryServer → RegistryServer) :
    Encodes serde (update f) (update f) := Exec.Maps.modify fun _ => rfl

theorem register_encodes (env : Env) : Encodes serde (register env) (register env) := by
  unfold register
  cases env.register with
  | none => exact .pure ()
  | some e => exact .throw _

theorem writeAll_encodes (env : Env) (stream : TcpStream) (message : Message) :
    Encodes serde (writeAll env stream message) (writeAll env stream (serde.toVec message)) := by
  unfold writeAll
  refine .getBind fun h => .bind (.modify fun _ => rfl) fun _ => ?_
  dsimp only [Host.encode]
  cases env.clientWrite stream h.clientWrites with
  | none => exact .modify fun h => by simp [Host.encode]
  | some e => exact .throw _

theorem forwardRequest_encodes (env : Env) (message : Message) :
    Encodes serde (forwardRequest env message) (forwardRequest env (serde.toVec message)) := by
  unfold forwardRequest
  refine .getBind fun h => ?_
  dsimp only [Host.encode]
  split
  · cases env.backupWrite with
    | none => exact .modify fun h => by simp [Host.encode]
    | some e => exact .throw _
  · exact .pure ()

theorem handleConnection_encodes (env : Env) (stream : TcpStream) (addr : SocketAddr) :
    Encodes serde (handleConnection Serde.direct env stream addr)
      (handleConnection serde env stream addr) := by
  unfold handleConnection
  refine .getBind fun h => ?_
  dsimp only [Host.encode]
  split
  · exact .bind (update_encodes serde _) fun _ => .bind (register_encodes serde env) fun _ =>
      update_encodes serde _
  · exact .bind (update_encodes serde _) fun _ => .bind (register_encodes serde env) fun _ =>
      .bind (writeAll_encodes serde env stream _) fun _ => .bind (update_encodes serde _) fun _ =>
        forwardRequest_encodes serde env _

theorem procIdToAddr_encodes (procId : ProcId) :
    Encodes serde (procIdToAddr procId) (procIdToAddr procId) := by
  unfold procIdToAddr
  refine .getBind fun h => ?_
  dsimp only [Host.encode]
  cases h.server.tokenAddrMap procId with
  | none => exact .throw _
  | some addr => exact .pure addr

theorem handleResponse_encodes (env : Env) (token : Token) (response : RegistryResponse) :
    Encodes serde (handleResponse Serde.direct env token response)
      (handleResponse serde env token response) := by
  unfold handleResponse
  refine .getBind fun h => ?_
  dsimp only [Host.encode]
  cases h.server.tokenStreamMap token with
  | none => exact .throw _
  | some stream => exact writeAll_encodes serde env stream _

theorem handleMessage_encodes (env : Env) (message : Message) :
    Encodes serde (handleMessage env message) (handleMessage env message) := by
  cases message with
  | data => exact .throw _
  | registry message =>
      cases message with
      | request p t k =>
          intro h
          rw [handleMessage_run, handleMessage_run]
          rfl
      | connectionEstablished => exact .pure _
      | stopRequest => exact .throw _
      | connection => exact .throw _
      | response => exact .throw _

theorem grantResponse_encodes (a : AccessGranted) :
    Encodes serde (grantResponse a) (grantResponse a) := by
  unfold grantResponse
  split
  · exact .bind (procIdToAddr_encodes serde _) fun addr => .pure _
  · exact .pure _
  · exact .panic _

theorem deliver_encodes (env : Env) (a : AccessGranted) :
    Encodes serde (deliver Serde.direct env a) (deliver serde env a) := by
  unfold deliver
  refine .bind (grantResponse_encodes serde a) fun response =>
    .bind (.attempt (handleResponse_encodes serde env a.1 response)) fun r => ?_
  cases r with
  | ok => exact .pure ()
  | error err => cases err <;> first | exact .pure () | exact .throw _

theorem grantPending_encodes (env : Env) (requests : List AccessGranted) :
    Encodes serde (grantPending Serde.direct env requests) (grantPending serde env requests) := by
  induction requests with
  | nil => exact .pure ()
  | cons a requests ih => exact .bind (deliver_encodes serde env a) fun _ => ih

theorem countRequest_encodes : Encodes serde countRequest countRequest := by
  unfold countRequest
  refine .bind (update_encodes serde _) fun _ => .getBind fun h => ?_
  dsimp only [Host.encode]
  split
  · exact .exit 0
  · exact .pure ()

theorem completeRequest_encodes (env : Env) (token : Token) (message : Message)
    (response : RegistryResponse) :
    Encodes serde (completeRequest Serde.direct env token message response)
      (completeRequest serde env token (serde.toVec message) response) :=
  .bind (handleResponse_encodes serde env token response) fun _ =>
    .bind (.mapErr (.zoom (fun _ => rfl) (fun _ _ => rfl) AccessManager.tryIter) _) fun requests =>
      .bind (grantPending_encodes serde env requests) fun _ =>
        .bind (forwardRequest_encodes serde env message) fun _ => countRequest_encodes serde

/-- What is read is what has been encoded. -/
theorem handleRequest_encodes (env : Env) (token : Token) (message : Message) :
    Encodes serde (handleRequest Serde.direct env token message)
      (handleRequest serde env token (serde.toVec message)) := by
  have hparse : Encodes serde (parse Serde.direct message) (parse serde (serde.toVec message)) := by
    unfold parse
    rw [serde.fromSlice_toVec]
    exact .pure message
  have hnote : ∀ message', Encodes serde (note message') (note message') := fun _ =>
    .modify fun _ => rfl
  exact .bind hparse fun message' => .bind (hnote message') fun _ =>
    .bind (handleMessage_encodes serde env message') fun response =>
      completeRequest_encodes serde env token message response

theorem serveRequest_encodes (env : Env) (token : Token) (message : Message) :
    Encodes serde (serveRequest Serde.direct env token message)
      (serveRequest serde env token (serde.toVec message)) := by
  unfold serveRequest
  refine .bind (.attempt (handleRequest_encodes serde env token message)) fun r => ?_
  cases r with
  | ok => exact .pure ()
  | error err =>
      cases err <;> first | exact .throw _ | exact handleResponse_encodes serde env token _

theorem removeClient_encodes (token : Token) :
    Encodes serde (removeClient token) (removeClient token) := update_encodes serde _

theorem handleRead_encodes (env : Env) (token : Token) (isBackup : Bool)
    (read : ReadResult Message) :
    Encodes serde (handleRead Serde.direct env token isBackup read)
      (handleRead serde env token isBackup (ReadResult.encode serde read)) := by
  cases read with
  | eof =>
      cases isBackup with
      | true => exact .pure ()
      | false => exact removeClient_encodes serde token
  | data message =>
      cases isBackup with
      | true => exact .pure ()
      | false => exact serveRequest_encodes serde env token message
  | failed e =>
      unfold handleRead
      dsimp only [ReadResult.encode]
      cases e.kind with
      | connectionReset => exact .bind (removeClient_encodes serde token) fun _ => .throw _
      | wouldBlock => exact .pure ()
      | connectionRefused | timedOut | other => exact .throw _

theorem handleData_encodes (env : Env) (token : Token) (read : ReadResult Message) :
    Encodes serde (handleData Serde.direct env token read)
      (handleData serde env token (ReadResult.encode serde read)) := by
  unfold handleData
  refine .getBind fun h => ?_
  dsimp only [Host.encode]
  cases if token == h.server.backupToken then h.server.backupStream
    else h.server.tokenStreamMap token with
  | none => exact .panic _
  | some stream => exact handleRead_encodes serde env token _ read

theorem handle_encodes (i : Input Message) :
    Encodes serde (i.handle Serde.direct) ((Input.encode serde i).handle serde) := by
  cases i with
  | connection env stream addr => exact handleConnection_encodes serde env stream addr
  | readable env token read => exact handleData_encodes serde env token read

/-- A step on bytes. -/
theorem step_encode (s : RegistryServer) (i : Input Message) :
    step serde s (Input.encode serde i)
      = ((step Serde.direct s i).1, (step Serde.direct s i).2.map (Served.encode serde)) := by
  have hrun := handle_encodes serde i s.enter
  rw [show Host.encode serde s.enter = s.enter from rfl] at hrun
  unfold step
  rw [hrun]
  rfl

/-- **The registry on bytes is the registry on messages**, in whatever format they are encoded. -/
theorem machine_encode (secondaryServer : Option (SocketAddr × TcpStream))
    (inputs : List (Input Message)) :
    let r := (machine Serde.direct secondaryServer).run inputs
    (machine serde secondaryServer).run (inputs.map (Input.encode serde))
      = (r.1, r.2.map (Served.encode serde)) := by
  have hrun := IOMachine.exec_simulation (M := machine Serde.direct secondaryServer)
    (N := machine serde secondaryServer) (R := Eq) (Input.encode serde) (Served.encode serde)
    (fun s s' i heq => by
      subst heq
      have hstep := step_encode serde s i
      exact ⟨(congrArg Prod.fst hstep).symm, congrArg Prod.snd hstep⟩)
    (show new secondaryServer = new secondaryServer from rfl) inputs
  exact Prod.ext hrun.1.symm hrun.2

end RegistryServer

end Soros
