import Soros.Exchange.Basic

set_option autoImplicit false

/-! # What a method sends and receives

However the operations of a method end, it sends at most the one message that it is for, once
or once more after a switch, and a synchronous method that returns `Ok` has received a grant
last (`Invocation.method_obeys`). Which key the grant is for is another matter. -/

namespace Soros

namespace Invocation

/-- The message that a method sends, if it sends one. -/
def message (self : ProtocolClient) : Invocation → Option Message
  | .create k => some (.registry (.request self.procId .create k))
  | .delete k => some (.registry (.request self.procId .delete k))
  | .read k | .readSync k => some (.registry (.request self.procId .read k))
  | .write k | .writeSync k => some (.registry (.request self.procId .write k))
  | .release k => some (.registry (.request self.procId .release k))
  | .awaitRead | .awaitWrite => none
  | .stop => some (.registry .stopRequest)

/-- Accounts for a method by the last message received; it may only send its own message. -/
def account (toSend : Option Message) :
    Prog.Monitor SocketOp SocketOp.Result (Option Message) where
  allows _ op := ∀ message, op = .call (.writeAll message) → toSend = some message
  next heard op answer :=
    match op, answer with
    | .receive, .ok message => some message
    | _, _ => heard

/-- A synchronous method that returns `Ok` has received a grant last. -/
def Ends (invocation : Invocation) (heard : Option Message)
    (r : Except ProtocolClientError Returned) : Prop :=
  match invocation, r with
  | .readSync _, .ok res =>
      ∃ k addr, heard = some (.registry (.response (.holder k addr))) ∧ res = (none, some addr)
  | .writeSync _, .ok _ => ∃ k, heard = some (.registry (.response (.success k)))
  | _, _ => True

end Invocation

namespace ProtocolClient

open Invocation (account)

variable {toSend heard : Option Message} (self : ProtocolClient)

/-- The last message received, if it is a response, is what `registry_handle_response` returns. -/
theorem registryHandleResponse_obeys :
    registryHandleResponse.Obeys (account toSend) (fun heard r => ∀ response, r = .ok response →
      heard = some (.registry (.response response))) heard := by
  refine ⟨by rintro message ⟨⟩, fun answer => ?_⟩
  cases answer with
  | error e => rintro response ⟨⟩
  | ok message =>
      cases message with
      | data => rintro response ⟨⟩
      | registry message =>
          cases message with
          | response response => cases response <;> rintro response' ⟨⟩ <;> rfl
          | connection | connectionEstablished | request | stopRequest => rintro response ⟨⟩

theorem registryAwaitRead_obeys :
    registryAwaitRead.Obeys (account toSend) (fun heard r => ∀ res, r = .ok res →
      heard = some (.registry (.response (.holder res.1 res.2)))) heard := by
  refine .bind (.mono (fun heard r h => ?_) registryHandleResponse_obeys)
  cases r with
  | error e => rintro res ⟨⟩
  | ok response =>
      cases response with
      | holder k addr =>
          rintro res ⟨⟩
          exact h _ rfl
      | success | wait | error | ack => rintro res ⟨⟩

theorem registryAwaitWrite_obeys :
    registryAwaitWrite.Obeys (account toSend) (fun heard r => ∀ k, r = .ok k →
      heard = some (.registry (.response (.success k)))) heard := by
  refine .bind (.mono (fun heard r h => ?_) registryHandleResponse_obeys)
  cases r with
  | error e => rintro k ⟨⟩
  | ok response =>
      cases response with
      | success k' =>
          rintro k ⟨⟩
          exact h _ rfl
      | holder | wait | error | ack => rintro k ⟨⟩

/-- A system call that the account allows. -/
theorem io_obeys {c : SocketCall} (hc : ∀ message, c = .writeAll message → toSend = some message) :
    (io c).Obeys (account toSend) (fun _ _ => True) heard := by
  refine .bind ⟨?_, fun answer => ?_⟩
  · rintro message ⟨⟩
    exact hc message rfl
  · cases answer <;> trivial

theorem switchToSecondary_obeys :
    switchToSecondary.Obeys (account toSend) (fun _ _ => True) heard := by
  have hquiet : ∀ {c : SocketCall} heard, (∀ message, c ≠ .writeAll message) →
      (io c).Obeys (account toSend) (fun _ _ => True) heard :=
    fun heard hc => io_obeys fun message hno => absurd hno (hc message)
  have hgreeted : ∀ heard, registryHandleConnection.Obeys (account toSend) (fun _ _ => True) heard := by
    intro heard
    refine .bind ⟨by rintro message ⟨⟩, fun answer => ?_⟩
    cases answer with
    | error e => trivial
    | ok message =>
        cases message with
        | data => trivial
        | registry message => cases message <;> trivial
  have hlast : ∀ heard, (do io .setReadTimeout; io .setWriteTimeout : Method Unit).Obeys
      (account toSend) (fun _ _ => True) heard :=
    fun heard => .seq (hquiet heard (by simp)) (fun _ heard => hquiet heard (by simp)) (by simp)
  refine .seq (hquiet heard (by simp)) (fun _ heard => ?_) (by simp)
  exact .bind (.attempt (.mono (fun heard _ _ => hlast heard) (hgreeted heard)))

/-- Nothing is sent but the request, also after a switch. -/
theorem registrySendRequest_obeys (k : KeyId) (t : RequestType) :
    (self.registrySendRequest k t).Obeys
      (account (some (.registry (.request self.procId t k)))) (fun _ _ => True) heard := by
  have hresend : ∀ heard, (resend self (.registry (.request self.procId t k))).Obeys
      (account (some (.registry (.request self.procId t k)))) (fun _ _ => True) heard := by
    intro heard
    unfold resend
    split
    · trivial
    · refine .seq switchToSecondary_obeys (fun _ heard => io_obeys ?_) (by simp)
      rintro message ⟨⟩
      rfl
  have hconfirm : ∀ heard, (confirmSent self (.registry (.request self.procId t k))).Obeys
      (account (some (.registry (.request self.procId t k)))) (fun _ _ => True) heard := by
    intro heard
    refine .bind ⟨by rintro message ⟨⟩, fun answer => ?_⟩
    cases answer with
    | none => trivial
    | some e => exact hresend heard
  refine .bind ⟨?_, fun answer => ?_⟩
  · rintro message ⟨⟩
    rfl
  · cases answer with
    | none => exact hconfirm heard
    | some e => exact hresend heard

/-- A synchronous read ends with a `Holder`, whether or not it has had to wait. -/
theorem awaitReadSync_obeys :
    awaitReadSync.Obeys (account toSend) (fun heard r => ∀ addr, r = .ok addr →
      ∃ k, heard = some (.registry (.response (.holder k addr)))) heard := by
  refine .bind (.attempt (.mono (fun heard r h => ?_) registryAwaitRead_obeys))
  cases r with
  | ok res =>
      rintro addr ⟨⟩
      exact ⟨res.1, h res rfl⟩
  | error e =>
      cases e with
      | waitError k =>
          refine .bind (.bind (.mono (fun heard r h => ?_) registryAwaitRead_obeys))
          cases r with
          | error e => rintro addr ⟨⟩
          | ok res =>
              dsimp only
              split
              · rintro addr ⟨⟩
              · rintro addr ⟨⟩
                exact ⟨res.1, h res rfl⟩
      | ioError | serializationError | registryError | unexpectedResponse | noBackupServer =>
          rintro addr ⟨⟩

theorem awaitWriteSync_obeys :
    awaitWriteSync.Obeys (account toSend) (fun heard r => ∀ res, r = .ok res →
      ∃ k, heard = some (.registry (.response (.success k)))) heard := by
  refine .bind (.attempt (.mono (fun heard r h => ?_) registryAwaitWrite_obeys))
  cases r with
  | ok k =>
      rintro res ⟨⟩
      exact ⟨k, h k rfl⟩
  | error e =>
      cases e with
      | waitError k =>
          refine .bind (.bind (.mono (fun heard r h => ?_) registryAwaitWrite_obeys))
          cases r with
          | error e => rintro res ⟨⟩
          | ok k' =>
              dsimp only
              split
              · rintro res ⟨⟩
              · rintro res ⟨⟩
                exact ⟨k', h k' rfl⟩
      | ioError | serializationError | registryError | unexpectedResponse | noBackupServer =>
          rintro res ⟨⟩

end ProtocolClient

open ProtocolClient in
/-- **Every method** sends at most its own message, and a synchronous one that returns `Ok` has
received a grant last. -/
theorem Invocation.method_obeys (self : ProtocolClient) (invocation : Invocation)
    (heard : Option Message) :
    (invocation.method self).Obeys (account (invocation.message self)) invocation.Ends heard := by
  cases invocation with
  | create k | delete k | release k =>
      refine .seq (.seq (registrySendRequest_obeys self k _) (fun _ heard => ?_) (by simp))
        (fun _ _ => trivial) (fun _ _ => trivial)
      refine .bind (.mono (fun heard r _ => ?_) registryHandleResponse_obeys)
      cases r with
      | error e => trivial
      | ok response =>
          cases response with
          | success k' =>
              dsimp only
              split <;> trivial
          | holder | wait | error | ack => trivial
  | read k | write k =>
      exact .seq (registrySendRequest_obeys self k _) (fun _ _ => trivial) (fun _ _ => trivial)
  | readSync k =>
      refine .bind (.seq (registrySendRequest_obeys self k _) (fun _ heard => ?_)
        (fun _ _ => trivial))
      refine .mono (fun heard r h => ?_) awaitReadSync_obeys
      cases r with
      | error e => trivial
      | ok addr =>
          obtain ⟨k', hk'⟩ := h addr rfl
          exact ⟨k', addr, hk', rfl⟩
  | writeSync k =>
      refine .bind (.seq (registrySendRequest_obeys self k _) (fun _ heard => ?_)
        (fun _ _ => trivial))
      refine .mono (fun heard r h => ?_) awaitWriteSync_obeys
      cases r with
      | error e => trivial
      | ok res =>
          obtain ⟨k', hk'⟩ := h res rfl
          exact ⟨k', hk'⟩
  | awaitRead =>
      refine .bind (.mono (fun heard r _ => ?_) registryAwaitRead_obeys)
      cases r <;> trivial
  | awaitWrite =>
      refine .bind (.mono (fun heard r _ => ?_) registryAwaitWrite_obeys)
      cases r <;> trivial
  | stop =>
      refine .seq (io_obeys ?_) (fun _ _ => trivial) (fun _ _ => trivial)
      rintro message ⟨⟩
      rfl

end Soros
