import Soros.P2PServer.Settling
import Soros.ProtocolClient.Framing
import Soros.RegistryServer.Framing

set_option autoImplicit false

/-! # Reading from a peer

`p2p_read` asks the server of a peer for the data of a key. It makes one `read` into a buffer of
256 bytes and takes what this returns for the answer, so the data gets through if the first read
brings all of its text, and never otherwise (`p2pRead_returns_iff`). -/

namespace Soros

namespace ProtocolClient

/-- How the system calls of `p2p_read` end, and whether lines of level debug are logged. -/
structure PeerEnv where
  connect : Option IoError
  write : Option IoError
  read : ReadResult Bytes
  debug : Bool

/-- Methods that talk to a peer. The state is what has been written on the connection. -/
abbrev PeerMethod := Exec (List Bytes) ProtocolClientError

/-- A system call followed by `?`. -/
def check : Option IoError → PeerMethod Unit
  | none => pure ()
  | some e => Exec.throw (.ioError e)

variable (serde : Serde Bytes)

/-- `stream.write_all(&message.to_vec()?)?`. -/
def sendPeer (env : PeerEnv) (message : Message) : PeerMethod Unit := do
  check env.write
  Exec.modify fun written => written ++ [serde.toVec message]

/-- The one `read` into the buffer. -/
def readPeer (env : PeerEnv) : PeerMethod Bytes :=
  match readInto env.read with
  | .ok data => pure data
  | .error e => Exec.throw (.ioError e)

def p2pRead (env : PeerEnv) (keyId : KeyId) : PeerMethod String := do
  check env.connect
  sendPeer serde env (.data (.request keyId))
  let data ← readPeer env
  -- the line of level debug prints the data
  if env.debug && !serde.isUtf8 data then
    Exec.panic "called `Result::unwrap()` on an `Err` value"
  else
    match serde.fromSlice data with
    | .error text => Exec.throw (.serializationError text)
    | .ok (.data (.response data)) => pure data
    | .ok _ => Exec.throw .unexpectedResponse

/-- `p2p_read` when nothing fails and the read returns `data`. -/
def received (debug : Bool) (data : Bytes) : PeerEnv := ⟨none, none, .data data, debug⟩

/-- The bytes that the server of the peer writes when the request has arrived. -/
def answer (server : P2PServer) (token : Token) (keyId : KeyId) : Bytes :=
  let request := ((p2pRead serde (received false []) keyId).run []).2.flatten
  let step := (P2PServer.handleRequest serde .calm token request).run server.enter
  (step.2.written.map Prod.snd).flatten

section

variable {serde}

theorem p2pRead_run (debug : Bool) (data : Bytes) (keyId : KeyId) :
    (p2pRead serde (received debug data) keyId).run []
      = (if debug && !serde.isUtf8 data then .panic "called `Result::unwrap()` on an `Err` value"
        else match serde.fromSlice data with
          | .error text => .err (.serializationError text)
          | .ok (.data (.response data)) => .ok data
          | .ok _ => .err .unexpectedResponse, [serde.toVec (.data (.request keyId))]) := by
  have hconnect : (check (received debug data).connect).run [] = (.ok (), []) := rfl
  have hsend : (sendPeer serde (received debug data) (.data (.request keyId))).run []
      = (.ok (), [serde.toVec (.data (.request keyId))]) := rfl
  have hread : (readPeer (received debug data)).run [serde.toVec (.data (.request keyId))]
      = (.ok data, [serde.toVec (.data (.request keyId))]) := rfl
  unfold p2pRead
  rw [Exec.bind_ok hconnect, Exec.bind_ok hsend, Exec.bind_ok hread,
    show (received debug data).debug = debug from rfl]
  split
  · rfl
  · cases serde.fromSlice data with
    | error text => rfl
    | ok message =>
        cases message with
        | registry => rfl
        | data message => cases message <;> rfl

/-- The peer answers with the frame of the data. -/
theorem answer_present {server : P2PServer} {token : Token} {stream : TcpStream}
    (hstream : server.tokenStreamMap token = some stream) {keyId : KeyId} {value : String}
    (hvalue : server.dataStore.dataMap keyId = some value) :
    answer serde server token keyId = serde.toVec (.data (.response value)) := by
  have hrequest : ((p2pRead serde (received false []) keyId).run []).2.flatten
      = serde.toVec (.data (.request keyId)) := by
    rw [p2pRead_run, List.flatten_singleton]
  unfold answer
  dsimp only
  rw [hrequest, P2PServer.handleRequest_present serde rfl (h := server.enter) hstream
    (serde.fromSlice_toVec _) hvalue]
  exact List.flatten_singleton

end

section

variable {serde} (hserde : serde.SingleValue) {server : P2PServer} {token : Token}
  {stream : TcpStream} (hstream : server.tokenStreamMap token = some stream) {keyId : KeyId}
  {value : String} (hvalue : server.dataStore.dataMap keyId = some value) {first : Bytes}
  {rest : List Bytes} (hcut : (first :: rest).flatten = answer serde server token keyId)

include hserde hstream hvalue hcut

theorem cut_frame :
    first ++ rest.flatten = (Message.data (.response value)).json ++ [newline] := by
  rw [answer_present hstream hvalue, hserde.toVec_eq, List.flatten_cons] at hcut
  exact hcut

/-- Data that has been decoded is a whole message. -/
theorem whole_of_returned {debug : Bool}
    (hreturns : ((p2pRead serde (received debug first) keyId).run []).1 = .ok value) :
    (Message.data (.response value)).json.length ≤ first.length := by
  have hframe := cut_frame hserde hstream hvalue hcut
  rw [p2pRead_run] at hreturns
  dsimp only at hreturns
  -- a value is returned only for data that has been decoded
  have haccepted : ∃ message, serde.fromSlice first = .ok message := by
    cases hparse : serde.fromSlice first with
    | ok message => exact ⟨message, rfl⟩
    | error text =>
        rw [hparse] at hreturns
        split at hreturns <;> cases hreturns
  obtain ⟨message, hmessage⟩ := haccepted
  have hstart : first ++ rest.flatten = [] ++ ((Message.data (.response value)).frame
      ++ (([] : List Message).map Message.frame).flatten) := by
    rw [hframe]
    simp [Message.frame]
  -- data that begins a frame and is decoded is all of its text
  obtain ⟨after, -, hfirst⟩ :=
    RegistryServer.brings_of_accepted hserde (Or.inl rfl) hstart hmessage
  rw [hfirst]
  simp

/-- When the whole text has come, nothing but the newline can be missing. -/
theorem first_of_whole (hlength : (Message.data (.response value)).json.length ≤ first.length) :
    ∃ after, RegistryServer.Margin after ∧
      first = (Message.data (.response value)).json ++ after := by
  rcases List.append_eq_append_iff.1 (cut_frame hserde hstream hvalue hcut) with
    ⟨mid, hmid, -⟩ | ⟨mid, hmid, hrest⟩
  · have hnil : mid = [] := by
      have htotal := congrArg List.length hmid
      rw [List.length_append] at htotal
      exact List.length_eq_zero_iff.1 (by omega)
    exact ⟨[], Or.inl rfl, by rw [hmid, hnil, List.append_nil, List.append_nil]⟩
  -- what follows the text begins with the newline
  · refine ⟨mid, ?_, hmid⟩
    cases mid with
    | nil => exact Or.inl rfl
    | cons b mid =>
        obtain ⟨rfl, hnil⟩ := List.cons.inj hrest
        exact Or.inr (by rw [(List.append_eq_nil_iff.1 hnil.symm).1])

end

/-- **A read returns the data** exactly if the first read of the answer brings its whole text. -/
theorem p2pRead_returns_iff (hserde : serde.SingleValue)
    (hutf8 : ∀ message, serde.isUtf8 (serde.toVec message) = true) (server : P2PServer)
    (token : Token) (stream : TcpStream) (hstream : server.tokenStreamMap token = some stream)
    (keyId : KeyId) (value : String) (hvalue : server.dataStore.dataMap keyId = some value)
    (debug : Bool) (first : Bytes) (rest : List Bytes)
    (hcut : (first :: rest).flatten = answer serde server token keyId) :
    ((p2pRead serde (received debug first) keyId).run []).1 = .ok value ↔
      (Message.data (.response value)).json.length ≤ first.length := by
  refine ⟨whole_of_returned hserde hstream hvalue hcut, fun hlength => ?_⟩
  obtain ⟨after, hafter, hfirst⟩ := first_of_whole hserde hstream hvalue hcut hlength
  have hparse : serde.fromSlice first = .ok (.data (.response value)) := by
    have hblank := hserde.fromSlice_blank (.data (.response value)) [] after (by simp [Blank])
      hafter.blank
    rwa [List.nil_append, ← hfirst] at hblank
  have htext : serde.isUtf8 first = true := by
    rcases hafter with rfl | rfl
    · rw [hfirst, List.append_nil]
      exact hserde.isUtf8_json _
    · have hall := hutf8 (.data (.response value))
      rwa [hserde.toVec_eq, Message.frame, ← hfirst] at hall
  rw [p2pRead_run, hparse, htext]
  simp

/-- What the encoding writes is a text. -/
theorem json_utf8 (message : Message) : Serde.json.isUtf8 (Serde.json.toVec message) = true := by
  refine decide_eq_true ?_
  show (message.json ++ [newline]).toByteArray.IsValidUTF8
  rw [List.toByteArray_append]
  refine (Json.closed_utf8.message message).append (Json.valid_ascii fun b hb => ?_)
  rw [List.mem_singleton.1 hb]
  decide

/-- A server with one peer and one key. -/
def offering (value : String) : P2PServer :=
  P2PServer.withPeer ((DataStore.create 1 value).run .new).2

/-- A short string, in one read. -/
theorem p2pRead_returns_short :
    ((p2pRead Serde.json (received true (Message.data (.response "value")).frame) 1).run []).1
      = .ok "value" := by
  have hcut : [(Message.data (.response "value")).frame].flatten
      = answer Serde.json (offering "value") 1 1 := by
    rw [List.flatten_singleton]
    exact (answer_present rfl rfl : answer Serde.json (offering "value") 1 1 = _).symm
  refine (p2pRead_returns_iff Serde.json Serde.json_singleValue json_utf8 (offering "value") 1 7 rfl 1
    "value" rfl true _ [] hcut).2 ?_
  rw [Message.frame, List.length_append]
  exact Nat.le_add_right _ _

/-- 256 letters: their text is longer than the buffer. -/
def letters : String := String.ofList (List.replicate 256 'a')

/-- The answer with the letters, in two reads that fill the buffer as far as they can. -/
theorem longValue_lost :
    ¬ ∀ (value : String) (first : Bytes) (rest : List Bytes),
      (∀ read ∈ first :: rest, read ≠ [] ∧ read.length ≤ 256) →
      (first :: rest).flatten = answer Serde.json (offering value) 1 1 →
      ((p2pRead Serde.json (received false first) 1).run []).1 = .ok value := by
  intro h
  have hcut : [(Message.data (.response letters)).frame.take 256,
      (Message.data (.response letters)).frame.drop 256].flatten
        = answer Serde.json (offering letters) 1 1 := by
    rw [List.flatten_cons, List.flatten_singleton, List.take_append_drop]
    exact (answer_present rfl rfl : answer Serde.json (offering letters) 1 1 = _).symm
  have hreturns := h letters _ _ (by decide +kernel) hcut
  have hwhole := whole_of_returned Serde.json_singleValue rfl rfl hcut hreturns
  have hlong : 256 < (Message.data (.response letters)).json.length := by decide +kernel
  rw [List.length_take] at hwhole
  omega

end ProtocolClient

end Soros
