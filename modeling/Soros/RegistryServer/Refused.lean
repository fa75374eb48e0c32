import Soros.RegistryServer.Requests

set_option autoImplicit false

/-! # What a refused request leaves behind

A request that is answered with an error should leave the access manager as it was. One kind
does not: a `Read` is registered first and the address of the holder is looked up afterwards,
so a reader whose holder is unknown is refused and stays registered (`strangerRead_registers`).
That is the only way (`refused_untouched_iff`). -/

namespace Soros

open RwLock
open AccessManager (Effect)

namespace RegistryServer

variable {Bytes : Type} (serde : Serde Bytes)

/-- The key states and the channel are what they were. -/
def Untouched (m m' : AccessManager) : Prop :=
  m'.keyStates = m.keyStates ∧ m'.accessGranted = m.accessGranted

/-- The request is not a read, or there is no such key, or the process reads the key already. -/
def NothingToRegister (m : AccessManager) (p : ProcId) (t : RequestType) (k : KeyId) : Prop :=
  t = .read → ∀ ks, m.keyStates k = some ks → p ∈ ks.readers

/-- A client is connected under the token. -/
def Serves (s : RegistryServer) (token : Token) : Prop :=
  token ≠ s.backupToken ∧ s.tokenStreamMap token ≠ none

/-! ## A read by a stranger -/

/-- The primary registry connects, and then a client, which creates a key. -/
def strangerInputs : List (Input Message) :=
  [.connection (Env.calm .ascending) 10 ⟨"127.0.0.1", 8888⟩,
    .connection (Env.calm .ascending) 11 ⟨"127.0.0.1", 4001⟩,
    .readable (Env.calm .ascending) 1 (.data (.registry (.request 1 .create 0)))]

/-- The client goes by an id that it has from another registry, and is refused. -/
theorem strangerRead_registers :
    ¬ ∀ (inputs : List (Input Message)) (env : Env) (token : Token) (p : ProcId) (t : RequestType)
        (k : KeyId) (e : RegistryServerError),
      Serves ((machine Serde.direct none).run inputs).1 token →
      ((handleMessage env (.registry (.request p t k)) : Method Message _).run
        ((machine Serde.direct none).run inputs).1.enter).1 = .err e →
      Untouched ((machine Serde.direct none).run inputs).1.accessManager
        (step Serde.direct ((machine Serde.direct none).run inputs).1
          (.readable env token (.data (.registry (.request p t k))))).1.accessManager := by
  intro h
  have hsame := h strangerInputs (Env.calm .ascending) 1 7 .read 0 (.unknownHolder 7)
    ⟨by decide, by decide⟩ (by decide)
  have hkey := congrFun hsame.1 0
  exact absurd hkey (by decide)

/-! ## Every refusal -/

/-- A lock that lets a reader in is the same if the reader was in already. -/
theorem ask_read_same_iff {l : FairLock ProcId} {p : ProcId} (h : (l.ask p .read).1 = true) :
    (l.ask p .read).2.toLock = l.toLock ↔ p ∈ l.readers := by
  have hroom := (l.ask_granted_iff p .read).1 h
  have hlock : (l.ask p .read).2.toLock = l.hold p .read := by
    unfold FairLock.ask
    rw [dif_pos hroom]
  rw [hlock]
  constructor
  · intro hsame
    have hreaders : insert p l.readers = l.readers := congrArg Lock.readers hsame
    exact Finset.insert_eq_self.1 hreaders
  · intro hp
    have hreaders : insert p l.readers = l.readers := Finset.insert_eq_self.2 hp
    show { l.toLock with readers := insert p l.readers } = l.toLock
    rw [hreaders]

theorem ofLock_inj {l l' : Lock ProcId} {c c' : ProcId}
    (h : KeyState.ofLock l c = KeyState.ofLock l' c') : l = l' := by
  have hqueue := congrArg KeyState.pendingRequest h
  have hreaders := congrArg KeyState.readers h
  have hwriter := congrArg KeyState.writer h
  have hpending : Function.Injective pending := by
    rintro ⟨p, m⟩ ⟨p', m'⟩ heq
    have hp : p = p' := congrArg Prod.fst heq
    have hm : m = m' := requestOf_injective (congrArg Prod.snd heq)
    rw [hp, hm]
  cases l
  cases l'
  simp only [KeyState.ofLock] at hqueue hreaders hwriter
  rw [List.map_injective_iff.2 hpending hqueue, hreaders, hwriter]

/-- A call whose request is refused leaves its key alone unless it lets a reader in. -/
theorem refused_effect {s : RegistryServer} {p : ProcId} {t : RequestType} {k : KeyId}
    {o o' : Option KeyState} {out : Outcome AccessManagerError (Option ProcId)}
    {messages : List AccessGranted} {e : RegistryServerError}
    (h : Effect (callOf p t k) o out messages o') (herr : s.answer t k out = .err e) :
    o' = o ↔ (t = .read → ∀ ks, o = some ks → p ∈ ks.readers) := by
  generalize hc : callOf p t k = c at h
  cases h with
  | missing => simp
  | present | busy | unheld =>
      cases t <;> cases hc
      simp
  | create | delete | write | release =>
      cases t <;> cases hc
      cases herr
  | wait _ l c _ m =>
      cases m <;> cases t <;> cases hc
      · cases herr
      · cases herr
  | read _ l c _ holder hask =>
      cases t <;> cases hc
      have hreads : (∀ ks, some (KeyState.ofLock l.toLock c) = some ks → p ∈ ks.readers)
          ↔ p ∈ l.readers := by simp
      rw [show (RequestType.read = .read → _) ↔ _ from ⟨fun h => h rfl, fun h _ => h⟩, hreads,
        ← ask_read_same_iff hask]
      constructor
      · intro heq
        exact ofLock_inj (Option.some.inj heq)
      · intro heq
        rw [heq]

/-- Answering an error touches neither the key states nor the channel. -/
theorem handleError_untouched (env : Env) (token : Token) (e : RegistryServerError)
    (h : Host Bytes) :
    Untouched h.server.accessManager
      ((handleError serde env token e).run h).2.server.accessManager := by
  have hsettled := handleResponse_settled serde env token (.error e.text) h
  refine ⟨?_, ?_⟩
  · rcases hsettled.manager with hm | hm
    · rw [handleError, hm]
    · rw [handleError, hm]
      rfl
  · rcases handleResponse_cases serde env token (.error e.text) h with
      ⟨stream, hok⟩ | ⟨e', h', herr, hno⟩
    · rw [handleError, hok]
      rfl
    · rw [handleError, herr]
      exact hno.buffer

/-- **A refused request changes nothing** exactly if it is not a read that registers a new
reader. -/
theorem refused_untouched_iff (secondaryServer : Option (SocketAddr × TcpStream))
    (inputs : List (Input Bytes)) (env : Env) (token : Token) (data : Bytes) (p : ProcId)
    (t : RequestType) (k : KeyId) (e : RegistryServerError)
    (htoken : Serves ((machine serde secondaryServer).run inputs).1 token)
    (hreq : requestIn serde data = some (p, t, k))
    (herr : ((handleMessage env (.registry (.request p t k)) : Method Bytes _).run
      ((machine serde secondaryServer).run inputs).1.enter).1 = .err e) :
    Untouched ((machine serde secondaryServer).run inputs).1.accessManager
      (step serde ((machine serde secondaryServer).run inputs).1
        (.readable env token (.data data))).1.accessManager ↔
    NothingToRegister ((machine serde secondaryServer).run inputs).1.accessManager p t k := by
  have hv : ((machine serde secondaryServer).run inputs).1.accessManager.Valid := by
    obtain ⟨calls, hcalls⟩ := run_manager serde secondaryServer inputs
    rw [hcalls]
    exact AccessManager.run_valid calls
  generalize ((machine serde secondaryServer).run inputs).1 = s at htoken herr hv ⊢
  rw [handleMessage_run] at herr
  obtain ⟨out, messages, o', heffect, hrun⟩ := callOf_effect hv env.iter p t k
  have hanswer : s.answer t k out = .err e := by
    rw [show s.enter.server = s from rfl, hrun] at herr
    exact herr
  have hsame := refused_effect heffect hanswer
  obtain ⟨hstop, rfl⟩ : e ≠ .stopRequest ∧ messages = [] := by
    obtain ⟨result, hreply, hresult⟩ := Reply.of_effect s heffect
    rw [hanswer] at hresult
    cases result with
    | ok => cases hresult
    | error e' =>
        cases hresult
        exact hreply.error
  -- the step makes the call and answers the error
  have hlock : lockEffect serde env data s.accessManager = s.accessManager.after k [] o' :=
    (lockEffect_request serde env hreq _).trans (congrArg Prod.snd hrun)
  have hstep : Untouched (s.accessManager.after k [] o')
      (step serde s (.readable env token (.data data))).1.accessManager := by
    have hrequest : (handleRequest serde env token data).run s.enter = _ :=
      handleRequest_run serde hreq
    rw [show s.enter.server = s from rfl, hrun, hlock] at hrequest
    dsimp only at hrequest
    rw [hanswer] at hrequest
    have hserve : ((serveRequest serde env token data).run s.enter).2
        = ((handleError serde env token e).run
            ((s.enter.gave (.registry (.request p t k))).withManager
              (s.accessManager.after k [] o'))).2 :=
      congrArg Prod.snd (serveRequest_error serde hrequest hstop)
    simp only [step, Input.handle, handleData_data serde env (h := s.enter) htoken.1 htoken.2, hserve]
    exact handleError_untouched serde env token e _
  rw [NothingToRegister, ← hsame]
  constructor
  · rintro ⟨hkeys, -⟩
    have hk := congrFun (hstep.1.symm.trans hkeys) k
    simpa [AccessManager.after] using hk
  · rintro rfl
    rw [AccessManager.after_self rfl] at hstep
    exact hstep

/-- The client releases the key, which it does not hold. -/
theorem refused_untouched_release :
    Untouched ((machine Serde.direct none).run strangerInputs).1.accessManager
      (step Serde.direct ((machine Serde.direct none).run strangerInputs).1
        (.readable (Env.calm .ascending) 1
          (.data (.registry (.request 1 .release 0))))).1.accessManager :=
  (refused_untouched_iff Serde.direct none strangerInputs (Env.calm .ascending) 1
    (.registry (.request 1 .release 0)) 1 .release 0 (.accessManager (.releaseAccess 1 0))
    ⟨by decide, by decide⟩ rfl (by decide)).2 (fun h => by cases h)

end RegistryServer

end Soros
