import Soros.AccessManager.Holders
import Soros.RegistryServer.Answering

set_option autoImplicit false

/-! # What a request means for each process

A request changes one key. For a process `p` three things count there: the access it has
(`accessOf`), the requests it has waiting (`entriesOf`) and the grants it is sent
(`grantsTo`). This file says what a request of `q` does to them: nothing is lost between the
queue and the grants (`Reply.entries`), and nobody but `q` can take an access away
(`Reply.access`). `step_request` is the step of the registry when nothing fails. -/

namespace Soros

open RwLock
open AccessManager (accessOf accessOf_ofLock grantMessage)

/-- `p` created the key, holds it or waits for it. -/
def KeyState.Names (ks : KeyState) (p : ProcId) : Prop := ks.creator = p ∨ ks.Involves p

/-- The requests that `p` has waiting on a key. -/
def entriesOf (o : Option KeyState) (p : ProcId) : List RequestType :=
  (o.elim [] KeyState.pendingRequest).filterMap fun e => if e.1 = p then some e.2 else none

/-- The requests of `p` among those granted. -/
def grantsTo (p : ProcId) (messages : List AccessGranted) : List RequestType :=
  messages.filterMap fun a => if a.1 = p then some a.2.2.1 else none

/-- The response grants a request of this type for the key `k`. -/
inductive Grants (k : KeyId) : RequestType → RegistryResponse → Prop where
  | read (addr : SocketAddr) : Grants k .read (.holder k addr)
  | write : Grants k .write (.success k)

/-- The modes in which the entries of a lock's queue name `p`. -/
def modesOf (p : ProcId) (q : List (ProcId × Mode)) : List RequestType :=
  q.filterMap fun e => if e.1 = p then some (requestOf e.2) else none

theorem modesOf_append (p : ProcId) (q q' : List (ProcId × Mode)) :
    modesOf p (q ++ q') = modesOf p q ++ modesOf p q' := List.filterMap_append

theorem entriesOf_ofLock (l : Lock ProcId) (c p : ProcId) :
    entriesOf (some (KeyState.ofLock l c)) p = modesOf p l.queue := by
  simp only [entriesOf, modesOf, Option.elim, KeyState.ofLock_pendingRequest, List.filterMap_map]
  rfl

theorem grantsTo_messages (k : KeyId) (c p : ProcId) (es : List (ProcId × Mode)) :
    grantsTo p (es.map (grantMessage k c)) = modesOf p es := by
  simp only [grantsTo, modesOf, List.filterMap_map]
  rfl

/-- The access of a process after grants is the last of those made to it. -/
theorem foldl_granted_modesOf (p : ProcId) (es : List (ProcId × Mode)) :
    ∀ f : ProcId → Option Mode, ((es.foldl Lock.granted f) p).map requestOf
      = (modesOf p es).getLast?.or ((f p).map requestOf) := by
  induction es with
  | nil => intro f; rfl
  | cons e es ih =>
      intro f
      rw [List.foldl_cons, ih]
      by_cases hp : p = e.1
      · subst hp
        have hmodes : modesOf e.1 (e :: es) = requestOf e.2 :: modesOf e.1 es := by
          simp [modesOf]
        rw [hmodes, List.getLast?_cons, Lock.granted, Function.update_self]
        cases (modesOf e.1 es).getLast? <;> rfl
      · have hmodes : modesOf p (e :: es) = modesOf p es := by
          simp [modesOf, Ne.symm hp]
        rw [hmodes, Lock.granted, Function.update_of_ne hp]

namespace RegistryServer

/-! ## One key -/

section

variable {s : RegistryServer} {q : ProcId} {k : KeyId} {t : RequestType} {o o' : Option KeyState}
  {result : Except RegistryServerError RegistryResponse} {messages : List AccessGranted}

/-- The request that a reply leaves waiting. -/
def queued (t : RequestType) : Except RegistryServerError RegistryResponse → List RequestType
  | .ok (.wait _) => [t]
  | _ => []

/-- **Nothing gets lost.** What `p` has waiting is granted to it or goes on waiting. -/
theorem Reply.entries (h : Reply s q k t o result messages o') (p : ProcId) :
    entriesOf o p ++ (if q = p then queued t result else [])
      = grantsTo p messages ++ entriesOf o' p := by
  have hgranted : ∀ (l : FairLock ProcId) (c : ProcId) (m : Mode), (l.ask q m).1 = true →
      entriesOf (some (KeyState.ofLock (l.ask q m).2.toLock c)) p
        = entriesOf (some (KeyState.ofLock l.toLock c)) p := by
    intro l c m hgo
    obtain ⟨hq, hq'⟩ := FairLock.ask_granted_queue hgo
    rw [entriesOf_ofLock, entriesOf_ofLock, hq, hq']
  cases h with
  | refused => simp [queued, grantsTo]
  | create => simp [queued, grantsTo, entriesOf, KeyState.new]
  | delete l c hidle =>
      rw [entriesOf_ofLock, FairLock.queue_of_idle hidle]
      simp [queued, grantsTo, entriesOf, modesOf]
  | read l c holder addr hgo => simp [queued, grantsTo, hgranted l c .read hgo]
  | unknown l c holder hgo => simp [queued, grantsTo, hgranted l c .read hgo]
  | write l c hgo => simp [queued, grantsTo, hgranted l c .write hgo]
  | wait l c m hwait =>
      have hcons := congrArg (modesOf p) (l.ask_conserves q m)
      rw [if_neg (by simp [hwait]), List.nil_append, modesOf_append] at hcons
      rw [entriesOf_ofLock, entriesOf_ofLock, hcons]
      by_cases hp : q = p <;> simp [queued, grantsTo, modesOf, hp]
  | release l c hmode =>
      have hcons := congrArg (modesOf p) (l.leave_conserves q)
      rw [modesOf_append] at hcons
      rw [entriesOf_ofLock, entriesOf_ofLock, grantsTo_messages, hcons]
      simp [queued]

/-- **Access lasts.** Only its own release takes the access of a process away, and nothing
changes it. -/
theorem Reply.access (h : Reply s q k t o result messages o') {p : ProcId} {a : RequestType}
    (hp : accessOf o p = some a) (hother : p ≠ q ∨ t ≠ .release) :
    accessOf o' p = some a ∧ grantsTo p messages = [] := by
  have hask : ∀ (l : FairLock ProcId) (c : ProcId) (m : Mode),
      accessOf (some (KeyState.ofLock l.toLock c)) p = some a →
      accessOf (some (KeyState.ofLock (l.ask q m).2.toLock c)) p = some a := by
    intro l c m hl
    have hmode : l.mode p ≠ none := by
      intro hno
      rw [accessOf_ofLock, hno] at hl
      cases hl
    rw [accessOf_ofLock] at hl ⊢
    rw [FairLock.ask_mode_of_holder hmode, hl]
  cases h with
  | refused => exact ⟨hp, rfl⟩
  | create => cases hp
  | delete l c hidle =>
      rw [accessOf_ofLock, (l.idle_iff_mode).1 hidle p] at hp
      cases hp
  | read l c => exact ⟨hask l c .read hp, rfl⟩
  | unknown l c => exact ⟨hask l c .read hp, rfl⟩
  | write l c => exact ⟨hask l c .write hp, rfl⟩
  | wait l c m => exact ⟨hask l c m hp, rfl⟩
  | release l c hmode =>
      have hne : p ≠ q := hother.resolve_right (fun hno => hno rfl)
      rw [accessOf_ofLock] at hp
      have hholds : l.mode p ≠ none := by
        intro hno
        rw [hno] at hp
        cases hp
      rw [accessOf_ofLock, FairLock.leave_mode_of_other hne hholds,
        FairLock.leave_of_other hne hholds]
      exact ⟨hp, rfl⟩

/-- A process that is granted access has it. -/
theorem Reply.granted (h : Reply s q k t o result messages o') {p : ProcId} {a : RequestType}
    (hp : grantsTo p messages = [a]) : accessOf o' p = some a := by
  cases h with
  | refused | create | delete | read | unknown | write | wait => cases hp
  | release l c hmode =>
      rw [grantsTo_messages] at hp
      rw [accessOf_ofLock, FairLock.leave_mode, foldl_granted_modesOf, hp]
      rfl

/-- A process whose request is granted at once has access. -/
theorem Reply.answered {response : RegistryResponse}
    (h : Reply s q k t o (.ok response) messages o') (hgrants : Grants k t response) :
    accessOf o' q = some t := by
  have hask : ∀ (l : FairLock ProcId) (c : ProcId) (m : Mode), (l.ask q m).1 = true →
      accessOf (some (KeyState.ofLock (l.ask q m).2.toLock c)) q = some (requestOf m) := by
    intro l c m hgo
    rw [accessOf_ofLock, FairLock.ask_mode, if_pos hgo, Function.update_self]
    rfl
  cases h with
  | create | delete | release => cases hgrants
  | wait l c m => cases m <;> cases hgrants
  | read l c holder addr hgo => exact hask l c .read hgo
  | write l c hgo => exact hask l c .write hgo

/-- **Access is granted**: a process that has access had it before, or it has been told. -/
theorem Reply.gains (h : Reply s q k t o result messages o') {p : ProcId} {a : RequestType}
    (hp : accessOf o' p = some a) (hother : p ≠ q ∨ t ≠ .release) :
    accessOf o p = some a ∨ a ∈ grantsTo p messages ∨
      p = q ∧ ((∃ response, result = .ok response ∧ Grants k t response ∧ a = t) ∨
        ∃ holder, result = .error (.unknownHolder holder)) := by
  have hask : ∀ (l : FairLock ProcId) (c : ProcId) (m : Mode), (l.ask q m).1 = true →
      accessOf (some (KeyState.ofLock (l.ask q m).2.toLock c)) p = some a →
      accessOf (some (KeyState.ofLock l.toLock c)) p = some a ∨ p = q ∧ a = requestOf m := by
    intro l c m hgo hl
    rw [accessOf_ofLock, FairLock.ask_mode, if_pos hgo] at hl
    by_cases hpq : p = q
    · subst hpq
      rw [Function.update_self] at hl
      exact Or.inr ⟨rfl, (Option.some.inj hl).symm⟩
    · rw [Function.update_of_ne hpq] at hl
      exact Or.inl (by rw [accessOf_ofLock, hl])
  cases h with
  | refused => exact Or.inl hp
  | create => simp [accessOf, KeyState.new] at hp
  | delete => cases hp
  | read l c holder addr hgo =>
      exact (hask l c .read hgo hp).imp_right fun hnew =>
        Or.inr ⟨hnew.1, Or.inl ⟨_, rfl, .read addr, hnew.2⟩⟩
  | unknown l c holder hgo =>
      exact (hask l c .read hgo hp).imp_right fun hnew => Or.inr ⟨hnew.1, Or.inr ⟨holder, rfl⟩⟩
  | write l c hgo =>
      exact (hask l c .write hgo hp).imp_right fun hnew =>
        Or.inr ⟨hnew.1, Or.inl ⟨_, rfl, .write, hnew.2⟩⟩
  | wait l c m hwait =>
      rw [accessOf_ofLock, FairLock.ask_mode, if_neg (by simp [hwait])] at hp
      exact Or.inl (by rw [accessOf_ofLock, hp])
  | release l c hmode =>
      rw [grantsTo_messages]
      rw [accessOf_ofLock, FairLock.leave_mode, foldl_granted_modesOf] at hp
      rcases Option.or_eq_some_iff.1 hp with hlast | ⟨-, hold⟩
      · exact Or.inr (Or.inl (List.mem_of_getLast? hlast))
      · rw [Function.update_of_ne (hother.resolve_right fun hno => hno rfl)] at hold
        exact Or.inl (by rw [accessOf_ofLock, hold])

/-- Whoever releases a key and does not wait for it has no access afterwards, whether or not the
release is accepted. -/
theorem release_access {p : ProcId} {out : Outcome AccessManagerError (Option ProcId)}
    (h : AccessManager.Effect (callOf p .release k) o out messages o')
    (he : entriesOf o p = []) : accessOf o' p = none := by
  generalize hc : callOf p .release k = c at h
  cases h with
  | missing => rfl
  | present | create | busy | delete | read | write => cases hc
  | wait k l c p' m => cases m <;> cases hc
  | unheld k l c p' hmode =>
      cases hc
      rw [accessOf_ofLock, hmode]
      rfl
  | release k l c p' hmode =>
      cases hc
      -- what is let in comes from the queue, where the process is not
      have hnone : modesOf p (l.leave p).1 = [] := by
        have hcons := congrArg (modesOf p) (l.leave_conserves p)
        rw [modesOf_append, ← entriesOf_ofLock l.toLock c, he] at hcons
        exact (List.append_eq_nil_iff.1 hcons).1
      rw [accessOf_ofLock, FairLock.leave_mode, foldl_granted_modesOf, hnone, Function.update_self]
      rfl

/-- Only its own request gets the name of a process into a key. -/
theorem Reply.names (h : Reply s q k t o result messages o') {p : ProcId} {ks' : KeyState}
    (hks' : o' = some ks') (hp : ks'.Names p) : (∃ ks, o = some ks ∧ ks.Names p) ∨ p = q := by
  have hask : ∀ (l : FairLock ProcId) (c : ProcId) (m : Mode),
      (KeyState.ofLock (l.ask q m).2.toLock c).Names p →
      (KeyState.ofLock l.toLock c).Names p ∨ p = q := by
    intro l c m hnames
    rcases hnames with hc | hinvolves
    · exact Or.inl (Or.inl hc)
    · rw [KeyState.involves_ofLock] at hinvolves
      refine (FairLock.ask_involves hinvolves).imp_left fun hold => Or.inr ?_
      exact (KeyState.involves_ofLock _ _ _).2 hold
  cases h with
  | refused => exact Or.inl ⟨ks', hks', hp⟩
  | create =>
      cases hks'
      rcases hp with hc | (hp | hp) | hp
      · exact Or.inr hc.symm
      · cases hp
      · simp [KeyState.new] at hp
      · simp [KeyState.new] at hp
  | delete => cases hks'
  | read l c | unknown l c =>
      cases hks'
      exact (hask l c .read hp).imp_left fun hold => ⟨_, rfl, hold⟩
  | write l c =>
      cases hks'
      exact (hask l c .write hp).imp_left fun hold => ⟨_, rfl, hold⟩
  | wait l c m =>
      cases hks'
      exact (hask l c m hp).imp_left fun hold => ⟨_, rfl, hold⟩
  | release l c =>
      cases hks'
      rcases hp with hc | hinvolves
      · exact Or.inl ⟨_, rfl, Or.inl hc⟩
      · rw [KeyState.involves_ofLock] at hinvolves
        exact Or.inl ⟨_, rfl, Or.inr ((KeyState.involves_ofLock _ _ _).2
          (FairLock.leave_involves hinvolves))⟩

/-- A request that fails lets nobody in. -/
theorem Reply.error {e : RegistryServerError} (h : Reply s q k t o (.error e) messages o') :
    e ≠ .stopRequest ∧ messages = [] := by
  cases h <;> exact ⟨by simp, rfl⟩

/-- A holder is unknown only if it is registered without an address. -/
theorem Reply.unknownHolder {holder : ProcId}
    (h : Reply s q k t o (.error (.unknownHolder holder)) messages o') :
    s.tokenAddrMap holder = none ∧ ∃ ks, o' = some ks ∧ ks.Names holder := by
  cases h with
  | unknown l c _ hask hholder haddr => exact ⟨haddr, _, rfl, Or.inr (Or.inl (Or.inr hholder))⟩

/-- The messages sent are for processes that had been waiting, and name the creator. -/
theorem Reply.message (h : Reply s q k t o result messages o') {a : AccessGranted}
    (ha : a ∈ messages) :
    ∃ ks m, o = some ks ∧ ks.Names a.1 ∧ a = grantMessage k ks.creator (a.1, m) := by
  cases h with
  | refused | create | delete | read | unknown | write | wait => cases ha
  | release l c hmode =>
      obtain ⟨⟨p, m⟩, he, rfl⟩ := List.mem_map.1 ha
      refine ⟨_, m, rfl, Or.inr ?_, rfl⟩
      rw [KeyState.involves_ofLock]
      exact Or.inr ⟨m, l.leave_conserves q ▸ List.mem_append_left _ he⟩

end

/-! ## The step of the registry -/

variable {Bytes : Type} (serde : Serde Bytes)

/-- The response that the client of a request gets. -/
def spoken : Except RegistryServerError RegistryResponse → RegistryResponse
  | .ok response => response
  | .error e => .error e.text

/-- **A request when nothing fails**: it is answered by what the access manager makes of it, and
the processes that it lets in are told. -/
theorem step_request {s : RegistryServer} {env : Env} {token : Token} {stream : TcpStream}
    {data : Bytes} {p : ProcId} {t : RequestType} {k : KeyId} (hv : s.accessManager.Valid)
    (hempty : s.accessManager.accessGranted.buffer = []) (hbackup : token ≠ s.backupToken)
    (hstream : s.tokenStreamMap token = some stream)
    (hreq : requestIn serde data = some (p, t, k)) (hopen : Open env s)
    (hforward : env.backupWrite = none) :
    ∃ out result messages o',
      AccessManager.Effect (callOf p t k) (s.accessManager.keyStates k) out messages o' ∧
      s.answer t k out = .ofExcept result ∧
      Reply s p k t (s.accessManager.keyStates k) result messages o' ∧
      ((∀ a ∈ messages, (grantAnswer s a).isSome) →
        let r := step serde s (.readable env token (.data data))
        r.1 = { s with
          accessManager := s.accessManager.after k [] o'
          requestCounter := r.1.requestCounter } ∧
        r.2.flatMap Served.written
          = (stream, encode serde (spoken result)) :: messages.filterMap (delivery serde s)) := by
  obtain ⟨out, messages, o', heffect, hrun⟩ := callOf_effect hv env.iter p t k
  obtain ⟨result, hreply, hanswer⟩ := Reply.of_effect s heffect
  refine ⟨out, result, messages, o', heffect, hanswer, hreply, fun hgrants => ?_⟩
  have hlock : lockEffect serde env data s.accessManager = s.accessManager.after k messages o' :=
    (lockEffect_request serde env hreq _).trans (congrArg Prod.snd hrun)
  have hdrained : drained (s.accessManager.after k messages o') = s.accessManager.after k [] o' := by
    rw [drained_eq]
    simp [AccessManager.after, AccessManager.sent, Channel.drain, hempty]
  have hanswer' : s.answer t k (((callOf p t k).invoke env.iter).run s.accessManager).1
      = .ofExcept result := by
    rw [hrun, hanswer]
  have hdata := handleData_data serde env (h := s.enter) hbackup (hstream ▸ Option.some_ne_none _)
    data
  cases result with
  | ok response =>
      have hbuffer : (s.accessManager.after k messages o').accessGranted.buffer = messages := by
        simp [AccessManager.after, AccessManager.sent, hempty]
      have hserve := serveRequest_run serde (h := s.enter) hreq hanswer' hopen hforward hstream
        (by rw [show s.enter.server.accessManager = s.accessManager from rfl, hlock, hbuffer]
            exact hgrants)
      simp only [step, Input.handle, hdata, hserve, List.flatMap_cons, List.flatMap_nil]
      rw [show s.enter.server.accessManager = s.accessManager from rfl, hlock]
      simp only [completed, Host.withManager, hbuffer, hdrained]
      exact ⟨rfl, by simp [Host.wrote, enter, spoken]; rfl⟩
  | error e =>
      obtain ⟨hstop, rfl⟩ := hreply.error
      have hserve := serveRequest_refused serde (h := s.enter) hreq hanswer' hstop hopen hstream
      simp only [step, Input.handle, hdata, hserve, List.flatMap_cons, List.flatMap_nil]
      rw [show s.enter.server.accessManager = s.accessManager from rfl, hlock]
      exact ⟨rfl, rfl⟩

/-- **What a message makes the registry write**, if nothing stops the delivery of the accesses
that it grants. -/
theorem handleRequest_writes {h : Host Bytes} {env : Env} {token : Token} {data : Bytes}
    (hv : h.server.accessManager.Valid)
    (hempty : h.server.accessManager.accessGranted.buffer = [])
    (hdelivers : Delivers env h.server token
      (lockEffect serde env data h.server.accessManager).accessGranted.buffer) :
    Writes serde h (lockEffect serde env data h.server.accessManager).accessGranted.buffer
      ((handleRequest serde env token data).run h).2 := by
  have hnothing : Writes serde h [] h := ⟨⟨[], [], by simp, by simp, by simp, by simp⟩, hempty⟩
  have hgave : ∀ message, Writes serde h [] (h.gave message) :=
    fun _ => ⟨hnothing.written, hempty⟩
  cases hreq : requestIn serde data with
  | some r =>
      obtain ⟨p, t, k⟩ := r
      have hlock : lockEffect serde env data h.server.accessManager
          = (((callOf p t k).invoke env.iter).run h.server.accessManager).2 :=
        lockEffect_request serde env hreq _
      obtain ⟨out, messages, o', heffect, hrun⟩ := AccessManager.invoke_effect hv env.iter
        (callOf p t k)
      obtain ⟨result, hreply, hanswer⟩ := Reply.of_effect h.server heffect
      rw [handleRequest_run serde hreq]
      rw [hlock, hrun] at hdelivers ⊢
      rw [hanswer]
      have hbuffer : (h.server.accessManager.after (callOf p t k).key messages o').accessGranted.buffer
          = messages := by
        simp [AccessManager.after, AccessManager.sent, hempty]
      cases result with
      | ok response =>
          obtain ⟨hwritten, hdone⟩ := completeRequest_writes serde env
            (h := (h.gave (.registry (.request p t k))).withManager
              (h.server.accessManager.after (callOf p t k).key messages o')) hdelivers data response
          exact ⟨hwritten, hdone⟩
      -- refused: nobody is let in, and the caller answers
      | error e =>
          obtain ⟨-, rfl⟩ := hreply.error
          rw [hbuffer]
          have hstay : h.written = h.written ++ [] ++ ([] : List AccessGranted).filterMap
              (delivery serde h.server) ++ [] := by simp
          exact ⟨⟨[], [], hstay, by simp, by simp, by simp⟩, hbuffer⟩
  -- no request of a process: only an announced connection is acknowledged
  | none =>
      have hlock : lockEffect serde env data h.server.accessManager = h.server.accessManager :=
        lockEffect_other serde env hreq _
      rw [hlock] at hdelivers ⊢
      unfold handleRequest
      rw [Exec.bind_run, parse_run, hempty]
      cases hmessage : serde.fromSlice data with
      | error text =>
          by_cases hutf : serde.isUtf8 data
          · simp only [hutf, if_true]
            exact hnothing
          · simp only [hutf]
            exact hnothing
      | ok message =>
          cases message with
          | data => exact hgave _
          | registry message =>
              cases message with
              | request p t k => simp [requestIn, hmessage] at hreq
              | connection | response | stopRequest => exact hgave _
              | connectionEstablished procId =>
                  have hack := completeRequest_writes serde env
                    (h := h.gave (.registry (.connectionEstablished procId))) hdelivers data .ack
                  rw [Host.gave_server, hempty] at hack
                  exact ⟨hack.written, hack.empty⟩

/-- What the registry makes of a message of a client if nothing stops the delivery of the accesses
that it grants. -/
structure Handles (s : RegistryServer) (env : Env) (data : Bytes) (s' : RegistryServer)
    (written : List (TcpStream × Bytes)) : Prop where
  valid : s'.accessManager.Valid
  empty : s'.accessManager.accessGranted.buffer = []
  keys : s'.accessManager.keyStates = (lockEffect serde env data s.accessManager).keyStates
  streams : s'.tokenStreamMap = s.tokenStreamMap
  /-- An answer at most, the deliveries, and perhaps an error. -/
  written : ∃ first late, written = first
      ++ (lockEffect serde env data s.accessManager).accessGranted.buffer.filterMap
        (delivery serde s) ++ late ∧
    first.length ≤ 1 ∧
    (first = [] → (lockEffect serde env data s.accessManager).accessGranted.buffer = []) ∧
    ∀ w ∈ late, ∃ text, w.2 = encode serde (.error text)

theorem step_handles {s : RegistryServer} {env : Env} {token : Token} {data : Bytes}
    (hv : s.accessManager.Valid) (hempty : s.accessManager.accessGranted.buffer = [])
    (hbackup : token ≠ s.backupToken) (hstream : s.tokenStreamMap token ≠ none)
    (hdelivers : Delivers env s token
      (lockEffect serde env data s.accessManager).accessGranted.buffer) :
    Handles serde s env data (step serde s (.readable env token (.data data))).1
      ((step serde s (.readable env token (.data data))).2.flatMap Served.written) := by
  have hdata := handleData_data serde env (h := s.enter) hbackup hstream data
  obtain ⟨⟨first, late, hwritten, hfirst, hnone, hlate⟩, hdone⟩ :=
    serveRequest_writes serde env (handleRequest_writes serde (h := s.enter) hv hempty hdelivers)
  have hsettled := serveRequest_settled serde env token data s.enter
  refine ⟨step_valid serde hv _, ?_, ?_, ?_, first, late, ?_, hfirst, hnone, hlate⟩
  · simp only [step, Input.handle, hdata]
    exact hdone
  · simp only [step, Input.handle, hdata]
    rcases hsettled.manager with hm | hm
    · rw [hm]
      rfl
    · rw [hm]
      rfl
  · simp only [step, Input.handle, hdata]
    rw [hsettled.server]
    rfl
  · simp only [step, Input.handle, hdata, List.flatMap_cons, List.flatMap_nil, List.append_nil]
    exact hwritten

end RegistryServer

end Soros
