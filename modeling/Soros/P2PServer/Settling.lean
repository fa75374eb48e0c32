import Soros.P2PServer.Basic

set_option autoImplicit false

/-! # Which requests are answered

`handle_data` passes every error on to the loop of `bind`, which logs it. The peer that has sent
the request is not told, and its connection stays: it waits for an answer that does not come
(`deletedKey_unsettled`). The registry answers such requests with their error. -/

namespace Soros

namespace P2PServer

variable {Bytes : Type} (serde : Serde Bytes)

/-- The peer has got one frame, or it has been removed. -/
def Settled (s : P2PServer) (env : Env) (token : Token) (stream : TcpStream) (data : Bytes) : Prop :=
  (∃ message, ((handleData serde env token (.data data)).run s.enter).2.written
    = [(stream, serde.toVec message)]) ∨
  ((handleData serde env token (.data data)).run s.enter).2.server.tokenStreamMap token = none

/-- The data is a request for a key that the store has. -/
def AsksForPresent (s : P2PServer) (data : Bytes) : Prop :=
  ∃ keyId value, serde.fromSlice data = .ok (.data (.request keyId)) ∧
    s.dataStore.dataMap keyId = some value

theorem handleData_data {s : P2PServer} {token : Token} {stream : TcpStream}
    (hstream : s.tokenStreamMap token = some stream) (env : Env) (data : Bytes) :
    (handleData serde env token (.data data)).run s.enter
      = (handleRequest serde env token data).run s.enter := by
  have hself : (s.enter : P2PHost Bytes).server.tokenStreamMap token = some stream := hstream
  unfold handleData
  rw [Exec.bind_ok (Exec.get_run _), hself]

/-- What else is read leaves the peer as it is. -/
theorem not_settled {s : P2PServer} {token : Token} {stream : TcpStream}
    (hstream : s.tokenStreamMap token = some stream) {env : Env} {data : Bytes}
    (hother : ¬ AsksForPresent serde s data) : ¬ Settled serde s env token stream data := by
  have hsame : ((handleData serde env token (.data data)).run s.enter).2 = s.enter := by
    rw [handleData_data serde hstream]
    refine (handleRequest_other serde fun keyId hparse => ?_).1
    cases hvalue : s.dataStore.dataMap keyId with
    | none => exact hvalue
    | some value => exact absurd ⟨keyId, value, hparse, hvalue⟩ hother
  unfold Settled
  rw [hsame]
  rintro (⟨message, hwritten⟩ | hgone)
  · cases hwritten
  · exact absurd (hstream.symm.trans hgone) (by simp)

/-- **Which requests are settled**: those for data that the server has. -/
theorem request_settled_iff (s : P2PServer) (env : Env) (token : Token) (stream : TcpStream)
    (data : Bytes) (hstream : s.tokenStreamMap token = some stream) (hwrite : env.write = none) :
    Settled serde s env token stream data ↔ AsksForPresent serde s data := by
  constructor
  · intro hsettled
    by_contra hother
    exact not_settled serde hstream hother hsettled
  · rintro ⟨keyId, value, hparse, hvalue⟩
    refine Or.inl ⟨.data (.response value), ?_⟩
    rw [handleData_data serde hstream, handleRequest_present serde hwrite (h := s.enter) hstream
      hparse hvalue]
    rfl

/-- A server with one peer connected. -/
def withPeer (dataStore : DataStore) : P2PServer :=
  ((handleConnection Env.calm 7 : Method Message Unit).run
    (new dataStore ⟨"127.0.0.1", 6001⟩).enter).2.server

/-- The peer asks for a key that has been created. -/
theorem request_settled_present :
    Settled Serde.direct (withPeer ((DataStore.create 1 "value").run .new).2) Env.calm 1 7
      (.data (.request 1)) :=
  (request_settled_iff Serde.direct _ Env.calm 1 7 _ rfl rfl).2 ⟨1, "value", rfl, rfl⟩

/-- It asks again when the key has been deleted. -/
theorem deletedKey_unsettled :
    ¬ ∀ (s : P2PServer) (env : Env) (token : Token) (stream : TcpStream) (data : Message),
      s.tokenStreamMap token = some stream → Serde.direct.isUtf8 data = true → env.write = none →
      Settled Serde.direct s env token stream data := by
  intro h
  have hstream : (withPeer ((do DataStore.create 1 "value"; DataStore.delete 1).run
      .new).2).tokenStreamMap 1 = some 7 := rfl
  refine not_settled Serde.direct hstream ?_ (h _ Env.calm 1 7 (.data (.request 1)) rfl rfl rfl)
  rintro ⟨keyId, value, hparse, hvalue⟩
  cases hparse
  cases hvalue

end P2PServer

end Soros
