import Soros.AccessManager.Batches
import Soros.AccessManager.Holders
import Soros.RegistryServer.Courses

set_option autoImplicit false

/-! # Which messages are accepted

What `handle_message` will say to a message, and whom it lets in, shows before it is called:
`Accepts` asks for the state of the key and for the address of the holder, and `accepts_iff` and
`batchOf_letsIn` say that nothing else matters. -/

namespace Soros

open RwLock
open AccessManager (Effect Call)

namespace RegistryServer

variable {Bytes : Type} (serde : Serde Bytes)

/-- The request of `procId` is accepted for a key in the given state. It needs the key, or for
`Create` the absence of it; a reader that is let in at once has to be told where the holder is. -/
def AcceptsRequest (s : RegistryServer) (env : Env) (procId : ProcId) :
    RequestType → Option KeyState → Prop
  | .create, none => True
  | .delete, some ks => ks.readers = ∅ ∧ ks.writer = none
  | .read, some ks => AccessManager.ReadWaits ks ∨
      s.tokenAddrMap ((ks.registerReader procId).holder env.iter) ≠ none
  | .write, some _ => True
  | .release, some ks => ks.Holds procId
  | _, _ => False

/-- `handle_message` accepts the message. -/
def Accepts (s : RegistryServer) (env : Env) : Message → Prop
  | .registry (.connectionEstablished _) => True
  | .registry (.request procId requestType keyId) =>
      s.AcceptsRequest env procId requestType (s.accessManager.keyStates keyId)
  | _ => False

/-- The accesses that a message grants to those who wait. -/
def letsIn (s : RegistryServer) : Message → List AccessGranted
  | .registry (.request procId requestType keyId) =>
      (callOf procId requestType keyId).letsIn s.accessManager
  | _ => []

section

variable {s : RegistryServer} {env : Env} {p : ProcId} {k : KeyId}

theorem result_request (t : RequestType) :
    result serde s env (.registry (.request p t k))
      = s.answer t k (((callOf p t k).invoke env.iter).run s.accessManager).1 :=
  congrArg Prod.fst (handleMessage_run env p t k s.enter)

/-- A read of a key that is there waits, or it is let in and told where the holder is. -/
theorem result_read {ks : KeyState} (hk : s.accessManager.keyStates k = some ks) :
    (∃ response, result serde s env (.registry (.request p .read k)) = .ok response) ↔
      s.AcceptsRequest env p .read (some ks) := by
  rw [result_request]
  have hread := AccessManager.read_run_some env.iter p hk
  by_cases hwaits : AccessManager.ReadWaits ks
  · have hinvoke : ((Call.invoke env.iter (.read p k)).run s.accessManager).1
        = .err (.requestAccess p k) :=
      congrArg Prod.fst (Exec.bind_err (hread.trans (if_pos hwaits)))
    rw [callOf, hinvoke]
    exact iff_of_true ⟨.wait k, rfl⟩ (Or.inl hwaits)
  · have hinvoke : ((Call.invoke env.iter (.read p k)).run s.accessManager).1
        = .ok (some ((ks.registerReader p).holder env.iter)) :=
      congrArg Prod.fst (Exec.bind_ok (hread.trans (if_neg hwaits)))
    rw [callOf, hinvoke, AcceptsRequest, answer]
    cases haddr : s.tokenAddrMap ((ks.registerReader p).holder env.iter) with
    | none => simp [hwaits]
    | some addr => simp

/-- Any other request is answered by its effect on the key. -/
theorem result_other (hv : s.accessManager.Valid) {t : RequestType}
    (hread : t = .read → s.accessManager.keyStates k = none) :
    (∃ response, result serde s env (.registry (.request p t k)) = .ok response) ↔
      s.AcceptsRequest env p t (s.accessManager.keyStates k) := by
  rw [result_request]
  obtain ⟨out, messages, o', heffect, hrun⟩ := callOf_effect hv env.iter p t k
  rw [hrun]
  generalize s.accessManager.keyStates k = o at heffect hread ⊢
  -- the call is the one that the request asks for, which rules out most effects
  generalize hc : callOf p t k = c at heffect
  cases heffect with
  | missing c hcreate =>
      cases t with
      | create => exact absurd hc.symm (hcreate p k)
      | read | delete | write | release => simp [answer, AcceptsRequest]
  | present | create | write =>
      cases t <;> cases hc
      simp [answer, AcceptsRequest]
  | busy k l c hidle =>
      cases t <;> cases hc
      simpa [answer, AcceptsRequest, Lock.Idle] using hidle
  | delete k l c hidle =>
      cases t <;> cases hc
      simpa [answer, AcceptsRequest, Lock.Idle] using hidle
  | read =>
      cases t <;> cases hc
      cases hread rfl
  | wait _ l c _ m =>
      cases m <;> cases t <;> cases hc
      · cases hread rfl
      · simp [answer, AcceptsRequest]
  | unheld k l c p hmode =>
      cases t <;> cases hc
      simpa [answer, AcceptsRequest, KeyState.holds_ofLock] using hmode
  | release k l c p hmode =>
      cases t <;> cases hc
      simpa [answer, AcceptsRequest, KeyState.holds_ofLock] using hmode

end

/-- **What `handle_message` accepts.** -/
theorem accepts_iff {s : RegistryServer} (hv : s.accessManager.Valid) (env : Env)
    (message : Message) :
    (∃ response, result serde s env message = .ok response) ↔ s.Accepts env message := by
  have hrefused : ∀ e, result serde s env message = .err e → ¬ s.Accepts env message →
      ((∃ response, result serde s env message = .ok response) ↔ s.Accepts env message) := by
    intro e herr hno
    rw [herr]
    exact iff_of_false (by simp) hno
  cases message with
  | data message => exact hrefused .unexpectedRequest rfl id
  | registry message =>
      cases message with
      | connectionEstablished id => exact iff_of_true ⟨.ack, rfl⟩ trivial
      | stopRequest => exact hrefused .stopRequest rfl id
      | connection | response => exact hrefused .unexpectedRequest rfl id
      | request p t k =>
          rw [Accepts]
          -- who the holder is can be told for a read only if the key is there
          by_cases hread : t = .read → s.accessManager.keyStates k = none
          · exact result_other serde hv hread
          · push Not at hread
            obtain ⟨rfl, hsome⟩ := hread
            obtain ⟨ks, hk⟩ := Option.ne_none_iff_exists'.1 hsome
            rw [hk]
            exact result_read serde hk

/-- **What is in the channel** when a message has been accepted: what was in it before, and the
accesses that the message grants. -/
theorem batchOf_letsIn {s : RegistryServer} (hv : s.accessManager.Valid) {data : Bytes}
    {message : Message} (hparse : serde.fromSlice data = .ok message) (env : Env) :
    batchOf serde s env data = s.accessManager.accessGranted.buffer ++ s.letsIn message := by
  unfold batchOf lockEffect requestIn
  rw [hparse]
  cases message with
  | data message => exact (List.append_nil _).symm
  | registry message =>
      cases message with
      | request p t k =>
          obtain ⟨out, messages, o', heffect, hrun⟩ := AccessManager.invoke_effect hv env.iter
            (callOf p t k)
          dsimp only
          rw [hrun, heffect.messages_eq]
          rfl
      | connectionEstablished | stopRequest | connection | response =>
          exact (List.append_nil _).symm

end RegistryServer

end Soros
