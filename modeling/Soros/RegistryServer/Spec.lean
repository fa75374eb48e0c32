import Soros.AccessManager.History
import Soros.RegistryServer.Basic

set_option autoImplicit false

/-! # What the methods of the registry server do

`handleMessage_run` puts a request on top of the call of the access manager behind it. What
`handle_request` does after that is `completeRequest`: it answers, delivers the accesses
granted to pending requests, and forwards. It may stop early in several places, but however it
ends it leaves the key states and the connections alone (`Settled`). -/

namespace Soros

open AccessManager (Call Effect)
open RwLock

/-- The host with another access manager. -/
def Host.withManager {Bytes : Type} (h : Host Bytes) (m : AccessManager) : Host Bytes :=
  { h with server := { h.server with accessManager := m } }

/-- The peer has closed or reset the connection. -/
def ReadResult.Ends {Bytes : Type} : ReadResult Bytes → Prop
  | .eof => True
  | .data _ => False
  | .failed e => e.kind = .connectionReset

namespace RegistryServer

variable {Bytes : Type}

/-! ## Requests and calls -/

/-- The call of the access manager behind a request. -/
def callOf (procId : ProcId) (requestType : RequestType) (keyId : KeyId) : Call :=
  match requestType with
  | .create => .create procId keyId
  | .delete => .delete keyId
  | .read => .read procId keyId
  | .write => .write procId keyId
  | .release => .release procId keyId

theorem callOf_key (p : ProcId) (t : RequestType) (k : KeyId) : (callOf p t k).key = k := by
  cases t <;> rfl

/-- What that call does to its key. -/
theorem callOf_effect {m : AccessManager} (hv : m.Valid) (iter : SetIter ProcId) (p : ProcId)
    (t : RequestType) (k : KeyId) :
    ∃ out messages o', Effect (callOf p t k) (m.keyStates k) out messages o' ∧
      ((callOf p t k).invoke iter).run m = (out, m.after k messages o') := by
  have heffect := AccessManager.invoke_effect hv iter (callOf p t k)
  rwa [callOf_key] at heffect

/-- What `handle_message` makes of the outcome of that call. -/
def answer (s : RegistryServer) (requestType : RequestType) (keyId : KeyId) :
    Outcome AccessManagerError (Option ProcId) → Outcome RegistryServerError RegistryResponse
  | .ok none => .ok (.success keyId)
  | .ok (some holder) =>
      match s.tokenAddrMap holder with
      | some addr => .ok (.holder keyId addr)
      | none => .err (.unknownHolder holder)
  | .err (.requestAccess p k) =>
      match requestType with
      | .read => .ok (.wait k)
      | .write => .ok (.wait keyId)
      | _ => .err (.accessManager (.requestAccess p k))
  | .err e => .err (.accessManager e)
  | .panic msg => .panic msg
  | .exit code => .exit code

theorem manager_run {α : Type} (c : AccessManager.Method α) (h : Host Bytes) :
    (manager c).run h = match c.run h.server.accessManager with
      | (.ok a, m) => (.ok (.ok a), h.withManager m)
      | (.err e, m) => (.ok (.error e), h.withManager m)
      | (.panic msg, m) => (.panic msg, h.withManager m)
      | (.exit code, m) => (.exit code, h.withManager m) := by
  rcases hrun : c.run h.server.accessManager with ⟨o, m⟩
  cases o <;> simp [manager, onManager, Exec.attempt, Host.withManager, hrun]

theorem succeed_run (k : KeyId) (c : AccessManager.Method Unit) (h : Host Bytes) :
    (succeed k c).run h = match c.run h.server.accessManager with
      | (.ok (), m) => (.ok (.ok (.success k)), h.withManager m)
      | (.err e, m) => (.ok (.error e), h.withManager m)
      | (.panic msg, m) => (.panic msg, h.withManager m)
      | (.exit code, m) => (.exit code, h.withManager m) := by
  unfold succeed
  rw [Exec.bind_run, manager_run]
  rcases hrun : c.run h.server.accessManager with ⟨o, m⟩
  cases o <;> rfl

theorem procIdToAddr_run (p : ProcId) (h : Host Bytes) :
    (procIdToAddr p).run h = match h.server.tokenAddrMap p with
      | some addr => (.ok addr, h)
      | none => (.err (.unknownHolder p), h) := by
  unfold procIdToAddr
  rw [Exec.bind_ok (Exec.get_run h)]
  cases hp : h.server.tokenAddrMap p <;> rfl

/-- The end of `handle_message`: an error of the access manager becomes one of the server. -/
def unwrap : Except AccessManagerError RegistryResponse → Method Bytes RegistryResponse
  | .ok response => pure response
  | .error err => Exec.throw (.accessManager err)

theorem succeed_unwrap_run {t : RequestType} (hread : t ≠ .read) (hwrite : t ≠ .write)
    (k : KeyId) (c : AccessManager.Method Unit) (h : Host Bytes) :
    let invoke : AccessManager.Method (Option ProcId) := do c; pure none
    (succeed k c >>= unwrap).run h
      = (h.server.answer t k (invoke.run h.server.accessManager).1,
        h.withManager (invoke.run h.server.accessManager).2) := by
  dsimp only
  rw [Exec.bind_run, succeed_run, Exec.bind_run]
  rcases hrun : c.run h.server.accessManager with ⟨o, m⟩
  cases o with
  | ok => rfl
  | err e => cases e <;> cases t <;> first | rfl | contradiction
  | panic => rfl
  | exit => rfl

theorem update_run (f : RegistryServer → RegistryServer) (h : Host Bytes) :
    (update f).run h = (.ok (), { h with server := f h.server }) := rfl

theorem writeAll_run (env : Env) (stream : TcpStream) (data : Bytes) (h : Host Bytes) :
    (writeAll env stream data).run h = match env.clientWrite stream h.clientWrites with
      | none => (.ok (), { h with
          written := h.written ++ [(stream, data)], clientWrites := h.clientWrites + 1 })
      | some e => (.err (.ioError e), { h with clientWrites := h.clientWrites + 1 }) := by
  unfold writeAll
  rw [Exec.bind_ok (Exec.get_run h), Exec.bind_ok (Exec.modify_run _ h)]
  cases env.clientWrite stream h.clientWrites <;> rfl

theorem forwardRequest_run (env : Env) (data : Bytes) (h : Host Bytes) :
    (forwardRequest env data).run h = if h.server.backupStream.isSome then
        match env.backupWrite with
        | none => (.ok (), { h with forwarded := h.forwarded ++ [data] })
        | some e => (.err (.ioError e), h)
      else (.ok (), h) := by
  unfold forwardRequest
  rw [Exec.bind_ok (Exec.get_run h)]
  split
  · cases env.backupWrite <;> rfl
  · rfl

/-- **`handle_message` on a request** makes the call of the access manager and answers by its
outcome. -/
theorem handleMessage_run (env : Env) (p : ProcId) (t : RequestType) (k : KeyId)
    (h : Host Bytes) :
    (handleMessage env (.registry (.request p t k))).run h
      = (h.server.answer t k (((callOf p t k).invoke env.iter).run h.server.accessManager).1,
        h.withManager (((callOf p t k).invoke env.iter).run h.server.accessManager).2) := by
  cases t with
  | create => exact succeed_unwrap_run (by decide) (by decide) k (AccessManager.create p k) h
  | delete => exact succeed_unwrap_run (by decide) (by decide) k (AccessManager.delete k) h
  | release =>
      exact succeed_unwrap_run (by decide) (by decide) k (AccessManager.release env.iter p k) h
  | read =>
      rcases hrun : (AccessManager.read env.iter p k).run h.server.accessManager with ⟨o, m⟩
      simp only [handleMessage, Exec.bind_run, manager_run, callOf, Call.invoke, hrun]
      cases o with
      | ok q =>
          simp only [Exec.bind_run, procIdToAddr_run, Host.withManager, Exec.pure_run, answer]
          cases hq : h.server.tokenAddrMap q <;> rfl
      | err e => cases e <;> rfl
      | panic => rfl
      | exit => rfl
  | write =>
      rcases hrun : (AccessManager.write p k).run h.server.accessManager with ⟨o, m⟩
      simp only [handleMessage, Exec.bind_run, succeed_run, callOf, Call.invoke, hrun]
      cases o with
      | ok => rfl
      | err e => cases e <;> rfl
      | panic => rfl
      | exit => rfl

/-- **What a request does**: how `handle_message` answers the request of `p` on the key `k`,
the waiters it lets in and what becomes of the key. -/
inductive Reply (s : RegistryServer) (p : ProcId) (k : KeyId) : RequestType → Option KeyState →
    Except RegistryServerError RegistryResponse → List AccessGranted → Option KeyState → Prop where
  | refused (t : RequestType) (o : Option KeyState) (e : AccessManagerError) :
      Reply s p k t o (.error (.accessManager e)) [] o
  | create : Reply s p k .create none (.ok (.success k)) [] (some (KeyState.new p))
  | delete (l : FairLock ProcId) (c : ProcId) (hidle : l.Idle) :
      Reply s p k .delete (some (KeyState.ofLock l.toLock c)) (.ok (.success k)) [] none
  | read (l : FairLock ProcId) (c holder : ProcId) (addr : SocketAddr)
      (hask : (l.ask p .read).1 = true) (hholder : holder ∈ (l.ask p .read).2.readers)
      (haddr : s.tokenAddrMap holder = some addr) :
      Reply s p k .read (some (KeyState.ofLock l.toLock c)) (.ok (.holder k addr)) []
        (some (KeyState.ofLock (l.ask p .read).2.toLock c))
  /-- The process has access, but is not told where the data is. -/
  | unknown (l : FairLock ProcId) (c holder : ProcId) (hask : (l.ask p .read).1 = true)
      (hholder : holder ∈ (l.ask p .read).2.readers) (haddr : s.tokenAddrMap holder = none) :
      Reply s p k .read (some (KeyState.ofLock l.toLock c)) (.error (.unknownHolder holder)) []
        (some (KeyState.ofLock (l.ask p .read).2.toLock c))
  | write (l : FairLock ProcId) (c : ProcId) (hask : (l.ask p .write).1 = true) :
      Reply s p k .write (some (KeyState.ofLock l.toLock c)) (.ok (.success k)) []
        (some (KeyState.ofLock (l.ask p .write).2.toLock c))
  | wait (l : FairLock ProcId) (c : ProcId) (m : Mode) (hask : (l.ask p m).1 = false) :
      Reply s p k (requestOf m) (some (KeyState.ofLock l.toLock c)) (.ok (.wait k)) []
        (some (KeyState.ofLock (l.ask p m).2.toLock c))
  | release (l : FairLock ProcId) (c : ProcId) (hmode : l.mode p ≠ none) :
      Reply s p k .release (some (KeyState.ofLock l.toLock c)) (.ok (.success k))
        ((l.leave p).1.map (AccessManager.grantMessage k c))
        (some (KeyState.ofLock (l.leave p).2.toLock c))

theorem Reply.of_effect (s : RegistryServer) {p : ProcId} {t : RequestType} {k : KeyId}
    {o o' : Option KeyState} {out : Outcome AccessManagerError (Option ProcId)}
    {messages : List AccessGranted} (h : Effect (callOf p t k) o out messages o') :
    ∃ result, Reply s p k t o result messages o' ∧ s.answer t k out = .ofExcept result := by
  generalize hc : callOf p t k = c at h
  cases h with
  | missing c =>
      subst hc
      refine ⟨.error (.accessManager (.keyNotFound k)), .refused t none _, ?_⟩
      cases t <;> rfl
  | present | busy | unheld =>
      cases t <;> cases hc
      exact ⟨_, .refused _ _ _, rfl⟩
  | create =>
      cases t <;> cases hc
      exact ⟨_, .create, rfl⟩
  | delete _ l c hidle =>
      cases t <;> cases hc
      exact ⟨_, .delete l c hidle, rfl⟩
  | read _ l c _ holder hask hholder =>
      cases t <;> cases hc
      cases haddr : s.tokenAddrMap holder with
      | none => exact ⟨_, .unknown l c holder hask hholder haddr, by simp [answer, haddr]; rfl⟩
      | some addr => exact ⟨_, .read l c holder addr hask hholder haddr, by simp [answer, haddr]; rfl⟩
  | write _ l c _ hask =>
      cases t <;> cases hc
      exact ⟨_, .write l c hask, rfl⟩
  | wait _ l c _ m hask =>
      cases m <;> cases t <;> cases hc
      · exact ⟨_, .wait l c .read hask, rfl⟩
      · exact ⟨_, .wait l c .write hask, rfl⟩
  | release _ l c _ hmode =>
      cases t <;> cases hc
      exact ⟨_, .release l c hmode, rfl⟩

theorem answer_unknownHolder {s : RegistryServer} {t : RequestType} {k : KeyId} {holder : ProcId}
    {out : Outcome AccessManagerError (Option ProcId)}
    (h : s.answer t k out = .err (.unknownHolder holder)) : out = .ok (some holder) := by
  cases out with
  | ok named =>
      cases named with
      | none => cases h
      | some named =>
          cases haddr : s.tokenAddrMap named with
          | some addr => simp [answer, haddr] at h
          | none => simpa [answer, haddr] using h
  | err e => cases e <;> cases t <;> cases h
  | panic | exit => cases h

/-- The specification of `handle_message` on a request. -/
theorem handleMessage_reply {h : Host Bytes} (hv : h.server.accessManager.Valid) (env : Env)
    (p : ProcId) (t : RequestType) (k : KeyId) :
    ∃ result messages o',
      Reply h.server p k t (h.server.accessManager.keyStates k) result messages o' ∧
      (handleMessage env (.registry (.request p t k))).run h
        = (.ofExcept result, h.withManager (h.server.accessManager.after k messages o')) := by
  obtain ⟨out, messages, o', heffect, hrun⟩ := callOf_effect hv env.iter p t k
  obtain ⟨result, hreply, hanswer⟩ := Reply.of_effect h.server heffect
  refine ⟨result, messages, o', hreply, ?_⟩
  rw [handleMessage_run, hrun, hanswer]

/-! ## What answering leaves alone -/

/-- The manager after the messages have been taken out of its channel. -/
def drained (m : AccessManager) : AccessManager := (AccessManager.tryIter.run m).2

theorem drained_eq (m : AccessManager) :
    drained m = { m with accessGranted := m.accessGranted.drain.2 } := rfl

/-- Nothing has changed but that the channel may be empty and the request counted, and
`handle_message` has been given nothing. -/
structure Settled (h h' : Host Bytes) : Prop where
  server : h'.server = { h.server with
    accessManager := h'.server.accessManager
    requestCounter := h'.server.requestCounter }
  manager : h'.server.accessManager = h.server.accessManager ∨
    h'.server.accessManager = drained h.server.accessManager
  handed : h'.handed = h.handed

instance : Std.Refl (Settled : Host Bytes → Host Bytes → Prop) :=
  ⟨fun _ => ⟨rfl, Or.inl rfl, rfl⟩⟩

instance : IsTrans (Host Bytes) Settled := ⟨fun _ _ _ h h' => by
  refine ⟨by rw [h'.server, h.server], ?_, h'.handed.trans h.handed⟩
  rcases h'.manager with hm' | hm' <;> rcases h.manager with hm | hm <;> rw [hm', hm]
  · exact Or.inl rfl
  · exact Or.inr rfl
  · exact Or.inr rfl
  · exact Or.inr rfl⟩

variable (serde : Serde Bytes) (env : Env)

open Exec (Keeps)

theorem writeAll_settled (stream : TcpStream) (data : Bytes) :
    Keeps Settled (writeAll env stream data) := by
  refine .bind .get fun h => .bind (.modify fun _ => ⟨rfl, Or.inl rfl, rfl⟩) fun _ => ?_
  cases env.clientWrite stream h.clientWrites with
  | none => exact .modify fun _ => ⟨rfl, Or.inl rfl, rfl⟩
  | some e => exact .throw _

theorem handleResponse_settled (token : Token) (response : RegistryResponse) :
    Keeps Settled (handleResponse serde env token response) := by
  refine .bind .get fun h => ?_
  cases h.server.tokenStreamMap token with
  | none => exact .throw _
  | some stream => exact writeAll_settled env stream _

theorem procIdToAddr_settled (p : ProcId) : Keeps Settled (procIdToAddr p : Method Bytes _) := by
  refine .bind .get fun h => ?_
  cases h.server.tokenAddrMap p with
  | none => exact .throw _
  | some addr => exact .pure _

theorem deliver_settled (a : AccessGranted) : Keeps Settled (deliver serde env a) := by
  refine .bind ?_ fun response => .bind (handleResponse_settled serde env _ _).attempt fun r => ?_
  · unfold grantResponse
    cases a.2.2.1 with
    | read => exact .bind (procIdToAddr_settled _) fun _ => .pure _
    | write => exact .pure _
    | create | delete | release => exact .panic _
  · rcases r with (_ | _) | _ <;> first | exact .pure _ | exact .throw _

theorem grantPending_settled (requests : List AccessGranted) :
    Keeps Settled (grantPending serde env requests) := by
  induction requests with
  | nil => exact .pure _
  | cons a requests ih => exact .bind (deliver_settled serde env a) fun _ => ih

theorem tryIter_settled :
    Keeps Settled ((onManager AccessManager.tryIter).mapErr .accessManager : Method Bytes _) :=
  fun _ => ⟨rfl, Or.inr rfl, rfl⟩

theorem forwardRequest_settled (data : Bytes) : Keeps Settled (forwardRequest env data) := by
  refine .bind .get fun h => .ite ?_ (.pure _)
  cases env.backupWrite with
  | none => exact .modify fun _ => ⟨rfl, Or.inl rfl, rfl⟩
  | some e => exact .throw _

theorem countRequest_settled : Keeps Settled (countRequest : Method Bytes _) := by
  refine .bind (.modify fun _ => ⟨rfl, Or.inl rfl, rfl⟩) fun _ => .bind .get fun h => ?_
  exact .ite (.exit _) (.pure _)

/-- **After the call nothing moves.** However the rest of `handle_request` ends, the key states
and the connections are as `handle_message` left them. -/
theorem completeRequest_settled (token : Token) (data : Bytes) (response : RegistryResponse) :
    Keeps Settled (completeRequest serde env token data response) :=
  .bind (handleResponse_settled serde env token response) fun _ =>
    .bind tryIter_settled fun requests => .bind (grantPending_settled serde env requests) fun _ =>
      .bind (forwardRequest_settled env data) fun _ => countRequest_settled

/-! ## What a step does to the server -/

/-- The request in a message, if it is one. -/
def requestIn (data : Bytes) : Option (ProcId × RequestType × KeyId) :=
  match serde.fromSlice data with
  | .ok (.registry (.request p t k)) => some (p, t, k)
  | _ => none

/-- The access manager after the call that a message asks for. -/
def lockEffect (data : Bytes) (m : AccessManager) : AccessManager :=
  match requestIn serde data with
  | some (p, t, k) => (((callOf p t k).invoke env.iter).run m).2
  | none => m

theorem lockEffect_request {data : Bytes} {p : ProcId} {t : RequestType} {k : KeyId}
    (hreq : requestIn serde data = some (p, t, k)) (m : AccessManager) :
    lockEffect serde env data m = (((callOf p t k).invoke env.iter).run m).2 := by
  unfold lockEffect
  rw [hreq]

/-- A request is read from the message that the data decodes to. -/
theorem fromSlice_request {data : Bytes} {p : ProcId} {t : RequestType} {k : KeyId}
    (hreq : requestIn serde data = some (p, t, k)) :
    serde.fromSlice data = .ok (.registry (.request p t k)) := by
  unfold requestIn at hreq
  split at hreq
  · rename_i hmessage
    obtain ⟨rfl, rfl, rfl⟩ : _ = p ∧ _ = t ∧ _ = k := by simpa using hreq
    exact hmessage
  · cases hreq

theorem lockEffect_other {data : Bytes} (hreq : requestIn serde data = none)
    (m : AccessManager) : lockEffect serde env data m = m := by
  unfold lockEffect
  rw [hreq]

theorem parse_run (data : Bytes) (h : Host Bytes) :
    (parse serde data).run h = match serde.fromSlice data with
      | .ok message => (.ok message, h)
      | .error text =>
          if serde.isUtf8 data then (.err (.serializationError text), h)
          else (.panic "called `Result::unwrap()` on an `Err` value", h) := by
  unfold parse
  cases serde.fromSlice data with
  | ok message => rfl
  | error text => by_cases hutf : serde.isUtf8 data <;> simp [hutf]

theorem note_run (message : Message) (h : Host Bytes) :
    (note message).run h = (.ok (), h.gave message) := rfl

theorem handleMessage_state (message : Message) (h : Host Bytes) :
    ((handleMessage env message).run h).2 = match message with
      | .registry (.request p t k) =>
          h.withManager (((callOf p t k).invoke env.iter).run h.server.accessManager).2
      | _ => h := by
  cases message with
  | data => rfl
  | registry message =>
      cases message with
      | request p t k => rw [handleMessage_run]
      | connection | connectionEstablished | response | stopRequest => rfl

/-- The message that `handle_request` passes to `handle_message`; none if the data is refused. -/
def passed (data : Bytes) : Option Message :=
  match serde.fromSlice data with
  | .ok message => some message
  | .error _ => none

theorem passed_eq_some {data : Bytes} {message : Message} :
    passed serde data = some message ↔ serde.fromSlice data = .ok message := by
  unfold passed
  cases serde.fromSlice data <;> simp

/-- A message that gets through is handled. -/
theorem handleRequest_passed {data : Bytes} {message : Message}
    (h : passed serde data = some message) (token : Token) :
    handleRequest serde env token data = (do
      note message
      let response ← handleMessage env message
      completeRequest serde env token data response) := by
  rw [passed_eq_some] at h
  unfold handleRequest parse
  rw [h]
  rfl

/-- Data that is refused is not handled: the server answers with a parse error, or panics over
bytes that are no text. -/
theorem handleRequest_refused {data : Bytes} (h : passed serde data = none) (token : Token) :
    (∃ text, handleRequest serde env token data = Exec.throw (.serializationError text)) ∨
      ∃ text, handleRequest serde env token data = Exec.panic text := by
  unfold passed at h
  unfold handleRequest parse
  cases hslice : serde.fromSlice data with
  | ok message =>
      rw [hslice] at h
      cases h
  | error text =>
      dsimp only
      split
      · exact Or.inl ⟨text, rfl⟩
      · exact Or.inr ⟨_, rfl⟩

/-- `handle_message` has been given the message in the data, if there is one. -/
def given (h : Host Bytes) (data : Bytes) : Host Bytes :=
  { h with handed := h.handed ++ (passed serde data).toList }

/-- **`handle_request` is the call, and then answering.** However it ends, the key states are
those the call left, the connections have not changed, and `handle_message` has been given the
message once. -/
theorem handleRequest_settled (token : Token) (data : Bytes) (h : Host Bytes) :
    Settled ((given serde h data).withManager (lockEffect serde env data h.server.accessManager))
      ((handleRequest serde env token data).run h).2 := by
  cases hpassed : passed serde data with
  | none =>
      have hother : requestIn serde data = none := by
        unfold passed at hpassed
        unfold requestIn
        cases hslice : serde.fromSlice data with
        | ok message => simp [hslice] at hpassed
        | error text => rfl
      have hsame : (given serde h data).withManager
          (lockEffect serde env data h.server.accessManager) = h := by
        rw [lockEffect_other serde env hother, given, hpassed, Option.toList_none, List.append_nil]
        rfl
      rw [hsame]
      rcases handleRequest_refused serde env hpassed token with ⟨text, hrun⟩ | ⟨text, hrun⟩
      · rw [hrun]
        exact refl_of Settled h
      · rw [hrun]
        exact refl_of Settled h
  | some message =>
      have hafter := Keeps.after (completeRequest_settled serde env token data)
        (handleMessage env message) (h.gave message)
      rw [handleMessage_state] at hafter
      rw [handleRequest_passed serde env hpassed, Exec.bind_ok (note_run message h), given, hpassed]
      unfold lockEffect requestIn
      rw [(passed_eq_some serde).1 hpassed]
      cases message with
      | data => exact hafter
      | registry message => cases message <;> exact hafter

theorem serveRequest_settled (token : Token) (data : Bytes) (h : Host Bytes) :
    Settled ((given serde h data).withManager (lockEffect serde env data h.server.accessManager))
      ((serveRequest serde env token data).run h).2 := by
  have hrequest := handleRequest_settled serde env token data h
  unfold serveRequest
  refine trans_of Settled ?_
    (Keeps.after (fun r => ?_) (Exec.attempt (handleRequest serde env token data)) h)
  · rw [Exec.attempt_state]
    exact hrequest
  · cases r with
    | ok => exact .pure _
    | error err =>
        cases err with
        | stopRequest => exact .throw _
        | ioError | serializationError | unexpectedRequest | accessManager | invalidToken
        | unknownHolder => exact handleResponse_settled serde env token _

/-- What `handle_data` makes of a server on a readable socket. -/
inductive Readable (s : RegistryServer) (token : Token) :
    ReadResult Bytes → RegistryServer → Prop where
  /-- The socket of the secondary server, or no socket at all, or nothing read from it. -/
  | idle (read : ReadResult Bytes)
      (hidle : token = s.backupToken ∨ s.tokenStreamMap token = none ∨
        ∃ e, read = .failed e ∧ e.kind ≠ .connectionReset) :
      Readable s token read s
  | gone (read : ReadResult Bytes) (hread : read.Ends) :
      Readable s token read { s with
        tokenStreamMap := Function.update s.tokenStreamMap token none
        tokenAddrMap := Function.update s.tokenAddrMap token none }
  | request (data : Bytes) (s' : RegistryServer) (hstream : s.tokenStreamMap token ≠ none)
      (hbackup : token ≠ s.backupToken)
      (hs' : s' = { s with
        accessManager := s'.accessManager, requestCounter := s'.requestCounter })
      (hmanager : s'.accessManager = lockEffect serde env data s.accessManager ∨
        s'.accessManager = drained (lockEffect serde env data s.accessManager)) :
      Readable s token (.data data) s'

theorem handleRead_readable (token : Token) (isBackup : Bool) (read : ReadResult Bytes)
    (h : Host Bytes) (hbackup : isBackup = (token == h.server.backupToken))
    (hstream : isBackup = false → h.server.tokenStreamMap token ≠ none) :
    Readable serde env h.server token read
      ((handleRead serde env token isBackup read).run h).2.server := by
  cases read with
  | eof =>
      cases isBackup with
      | true => exact .idle _ (Or.inl (by simpa using hbackup.symm))
      | false => exact .gone _ trivial
  | data data =>
      cases isBackup with
      | true => exact .idle _ (Or.inl (by simpa using hbackup.symm))
      | false =>
          have hsettled := serveRequest_settled serde env token data h
          exact .request data _ (hstream rfl) (by simpa using hbackup.symm) hsettled.server
            hsettled.manager
  | failed e =>
      unfold handleRead
      dsimp only
      cases hkind : e.kind with
      | connectionReset => exact .gone _ hkind
      | connectionRefused | timedOut | wouldBlock | other =>
          exact .idle _ (Or.inr (Or.inr ⟨e, rfl, by simp [hkind]⟩))

theorem handleData_readable (token : Token) (read : ReadResult Bytes) (h : Host Bytes) :
    Readable serde env h.server token read ((handleData serde env token read).run h).2.server := by
  unfold handleData
  rw [Exec.bind_ok (Exec.get_run h)]
  dsimp only
  split
  · rename_i hstream
    refine .idle read ?_
    by_cases hbackup : token = h.server.backupToken
    · exact Or.inl hbackup
    · rw [if_neg (by simpa using hbackup)] at hstream
      exact Or.inr (Or.inl hstream)
  · rename_i stream hstream
    refine handleRead_readable serde env token _ read h rfl fun hno => ?_
    rw [if_neg (by simpa using hno)] at hstream
    rw [hstream]
    exact Option.some_ne_none stream

/-- What `handle_connection` makes of a server. -/
inductive Accepted (s : RegistryServer) (stream : TcpStream) (addr : SocketAddr) :
    RegistryServer → Prop where
  | primary (hfirst : s.backupAddr = none ∧ s.firstConnection = true) :
      Accepted s stream addr { s with
        firstConnection := false
        tokenStreamMap := Function.update s.tokenStreamMap s.primaryToken (some stream) }
  | primaryLost (hfirst : s.backupAddr = none ∧ s.firstConnection = true) :
      Accepted s stream addr { s with firstConnection := false }
  | client (hfirst : ¬ (s.backupAddr = none ∧ s.firstConnection = true)) :
      Accepted s stream addr { s with
        idCounter := s.idCounter + 1
        tokenStreamMap := Function.update s.tokenStreamMap (s.idCounter + 1) (some stream)
        tokenAddrMap := Function.update s.tokenAddrMap (s.idCounter + 1) (some addr) }
  | clientLost (hfirst : ¬ (s.backupAddr = none ∧ s.firstConnection = true)) :
      Accepted s stream addr { s with idCounter := s.idCounter + 1 }

/-- **The server after a connection.** It gives a token unless the registration or, for a
client, the greeting fails. -/
theorem handleConnection_server (stream : TcpStream) (addr : SocketAddr) (h : Host Bytes) :
    ((handleConnection serde env stream addr).run h).2.server =
      if h.server.backupAddr = none ∧ h.server.firstConnection = true then
        { h.server with
          firstConnection := false
          tokenStreamMap := if env.register = none then
            Function.update h.server.tokenStreamMap h.server.primaryToken (some stream)
            else h.server.tokenStreamMap }
      else if env.register = none ∧ env.clientWrite stream h.clientWrites = none then
        { h.server with
          idCounter := h.server.idCounter + 1
          tokenStreamMap :=
            Function.update h.server.tokenStreamMap (h.server.idCounter + 1) (some stream)
          tokenAddrMap :=
            Function.update h.server.tokenAddrMap (h.server.idCounter + 1) (some addr) }
      else { h.server with idCounter := h.server.idCounter + 1 } := by
  unfold handleConnection
  rw [Exec.bind_ok (Exec.get_run h)]
  dsimp only
  by_cases hfirst : h.server.backupAddr = none ∧ h.server.firstConnection = true
  · rw [if_pos (by simp [hfirst]), if_pos hfirst]
    cases hregister : env.register <;> simp [register, hregister, Exec.bind_run, update_run]
  · rw [if_neg (by simpa using hfirst), if_neg hfirst, Exec.bind_ok (update_run _ h)]
    cases hregister : env.register with
    | some e => simp [register, hregister, Exec.bind_run]
    | none =>
        simp only [register, hregister]
        rw [Exec.bind_ok (Exec.pure_run () _), Exec.bind_run, writeAll_run]
        cases hwrite : env.clientWrite stream h.clientWrites with
        | some e => simp
        | none =>
            dsimp only
            rw [Exec.bind_ok (update_run _ _), forwardRequest_run]
            split
            · cases env.backupWrite <;> simp
            · simp

theorem handleConnection_accepted (stream : TcpStream) (addr : SocketAddr) (h : Host Bytes) :
    Accepted h.server stream addr ((handleConnection serde env stream addr).run h).2.server := by
  rw [handleConnection_server]
  by_cases hfirst : h.server.backupAddr = none ∧ h.server.firstConnection = true
  · rw [if_pos hfirst]
    by_cases hregister : env.register = none
    · rw [if_pos hregister]
      exact .primary hfirst
    · rw [if_neg hregister]
      exact .primaryLost hfirst
  · rw [if_neg hfirst]
    split
    · exact .client hfirst
    · exact .clientLost hfirst

theorem step_accepted (s : RegistryServer) (stream : TcpStream) (addr : SocketAddr) :
    Accepted s stream addr (step serde s (.connection env stream addr)).1 :=
  handleConnection_accepted serde env stream addr s.enter

theorem step_readable (s : RegistryServer) (token : Token) (read : ReadResult Bytes) :
    Readable serde env s token read (step serde s (.readable env token read)).1 :=
  handleData_readable serde env token read s.enter

namespace Accepted

variable {s s' : RegistryServer} {stream : TcpStream} {addr : SocketAddr}

theorem manager (h : Accepted s stream addr s') : s'.accessManager = s.accessManager := by
  cases h <;> rfl

theorem backupStream (h : Accepted s stream addr s') : s'.backupStream = s.backupStream := by
  cases h <;> rfl

/-- A connection that is there is the new one, under its token, or it was there before. -/
theorem stream_cases (h : Accepted s stream addr s') (p : Token) :
    p = s.nextToken ∧ s'.tokenStreamMap p = some stream ∨
      s'.tokenStreamMap p = s.tokenStreamMap p := by
  cases h with
  | primary hfirst =>
      by_cases hp : p = s.primaryToken
      · refine Or.inl ⟨?_, by rw [hp]; exact Function.update_self ..⟩
        simp [nextToken, hfirst, hp]
      · exact Or.inr (Function.update_of_ne hp _ _)
  | client hfirst =>
      by_cases hp : p = s.idCounter + 1
      · refine Or.inl ⟨?_, by rw [hp]; exact Function.update_self ..⟩
        rw [nextToken, if_neg (by simpa using hfirst), hp]
      · exact Or.inr (Function.update_of_ne hp _ _)
  | primaryLost | clientLost => exact Or.inr rfl

/-- Nobody but the new connection notices. -/
theorem others (h : Accepted s stream addr s') {p : Token} (hp : p ≠ s.nextToken) :
    s'.tokenStreamMap p = s.tokenStreamMap p :=
  (h.stream_cases p).resolve_left fun hnew => hp hnew.1

end Accepted

/-- Taking the messages out of the channel is no matter to the keys. -/
theorem keyStates_drained {m m' : AccessManager} (h : m' = m ∨ m' = drained m) :
    m'.keyStates = m.keyStates := by
  rcases h with rfl | rfl
  · rfl
  · rfl

namespace Readable

variable {serde env}
variable {s s' : RegistryServer} {token : Token} {read : ReadResult Bytes}

theorem backupStream (h : Readable serde env s token read s') :
    s'.backupStream = s.backupStream := by
  cases h with
  | idle | gone => rfl
  | request data _ _ _ hs' => rw [hs']

/-- Nobody but the client that is read notices. -/
theorem others (h : Readable serde env s token read s') {p : Token} (hp : p ≠ token) :
    s'.tokenStreamMap p = s.tokenStreamMap p := by
  cases h with
  | idle => rfl
  | gone => exact Function.update_of_ne hp _ _
  | request data _ _ _ hs' => rw [hs']

/-- Reading connects nobody. -/
theorem stream_before (h : Readable serde env s token read s') {p : Token} {stream : TcpStream}
    (hp : s'.tokenStreamMap p = some stream) : s.tokenStreamMap p = some stream := by
  by_cases heq : p = token
  · subst heq
    cases h with
    | idle => exact hp
    | gone => simp at hp
    | request data _ _ _ hs' => rwa [hs'] at hp
  · rwa [h.others heq] at hp

/-- Bytes of a connected client are served: the locks change by their request, and the
connections stay. -/
theorem served {data : Bytes} (h : Readable serde env s token (.data data) s')
    (hstream : s.tokenStreamMap token ≠ none) (hbackup : token ≠ s.backupToken) :
    s' = { s with accessManager := s'.accessManager, requestCounter := s'.requestCounter } ∧
    (s'.accessManager = lockEffect serde env data s.accessManager ∨
      s'.accessManager = drained (lockEffect serde env data s.accessManager)) := by
  cases h with
  | idle _ hidle =>
      rcases hidle with hback | hnone | ⟨e, hfailed, -⟩
      · exact absurd hback hbackup
      · exact absurd hnone hstream
      · cases hfailed
  | gone _ hends => exact hends.elim
  | request _ _ _ _ hs' hmanager => exact ⟨hs', hmanager⟩

/-- Without a message of a client nothing happens to the locks. -/
theorem quiet (h : Readable serde env s token read s')
    (hquiet : (∀ data, read ≠ .data data) ∨ token = s.backupToken ∨
      s.tokenStreamMap token = none) : s'.accessManager = s.accessManager := by
  cases h with
  | idle | gone => rfl
  | request data _ hstream hbackup =>
      rcases hquiet with hno | hyes | hnone
      · exact absurd rfl (hno data)
      · exact absurd hyes hbackup
      · exact absurd hnone hstream

end Readable

/-! ## Server runs are runs of the access manager -/

theorem lockEffect_exec (data : Bytes) (m : AccessManager) :
    ∃ calls, lockEffect serde env data m = (AccessManager.machine.exec m calls).1 := by
  unfold lockEffect
  cases requestIn serde data with
  | none => exact ⟨[], rfl⟩
  | some r =>
      obtain ⟨p, t, k⟩ := r
      exact ⟨[.call env.iter (callOf p t k)], rfl⟩

theorem step_manager (s : RegistryServer) (i : Input Bytes) :
    ∃ calls, (step serde s i).1.accessManager
      = (AccessManager.machine.exec s.accessManager calls).1 := by
  cases i with
  | connection env stream addr =>
      exact ⟨[], (step_accepted serde env s stream addr).manager⟩
  | readable env token read =>
      have hreadable := step_readable serde env s token read
      generalize (step serde s (.readable env token read)).1 = s' at hreadable ⊢
      cases hreadable with
      | idle | gone => exact ⟨[], rfl⟩
      | request data _ _ _ _ hmanager =>
          obtain ⟨calls, hcalls⟩ := lockEffect_exec serde env data s.accessManager
          rcases hmanager with hm | hm
          · exact ⟨calls, hm.trans hcalls⟩
          · refine ⟨calls ++ [.tryIter], ?_⟩
            rw [IOMachine.exec_append, ← hcalls]
            exact hm

theorem step_valid {s : RegistryServer} (hv : s.accessManager.Valid) (i : Input Bytes) :
    (step serde s i).1.accessManager.Valid := by
  obtain ⟨calls, hcalls⟩ := step_manager serde s i
  rw [hcalls]
  exact AccessManager.exec_valid hv calls

/-- **The server refines the access manager.** Whatever the server goes through, its access
manager has gone through a sequence of calls on a fresh one. -/
theorem run_manager (secondaryServer : Option (SocketAddr × TcpStream))
    (inputs : List (Input Bytes)) :
    ∃ calls, ((machine serde secondaryServer).run inputs).1.accessManager
      = (AccessManager.machine.run calls).1 := by
  refine IOMachine.run_invariant
    (fun s : RegistryServer => ∃ calls, s.accessManager = (AccessManager.machine.run calls).1)
    ⟨[], rfl⟩ ?_ inputs
  rintro s i ⟨calls, hcalls⟩
  obtain ⟨more, hmore⟩ := step_manager serde s i
  refine ⟨calls ++ more, ?_⟩
  rw [IOMachine.run_append, ← hcalls]
  exact hmore

end RegistryServer

end Soros
