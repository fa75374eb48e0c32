import Soros.Exchange.Methods
import Soros.RegistryServer.Provenance

set_option autoImplicit false

/-! # Whose grant a synchronous call accepts

`registry_read_sync` and `registry_write_sync` take the next grant in the stream for theirs: they
compare its key with that of a `Wait`, if there was one, and never with the key that they have
asked for. A grant that comes after its call has given up is accepted by the next call
(`lateGrant_accepted`). A call that starts with nothing of earlier calls left accepts its own
grant only (`own_grant`). -/

namespace Soros

open RegistryServer (Tracked encode)
open RegistryServer.Tracked (Traced Goes)

namespace Exchange

/-- **A synchronous call succeeds only on its own grant**: if it returns `Ok`, the last message
it has received grants its own request. -/
def OwnGrant : Event → Prop
  | .returned p call (.readSync k) heard (.ok res) => ∃ addr, res = (none, some addr) ∧
      heard = some ⟨.registry (.response (.holder k addr)),
        ⟨p, call, .registry (.request p .read k)⟩⟩
  | .returned p call (.writeSync k) heard (.ok _) =>
      heard = some ⟨.registry (.response (.success k)),
        ⟨p, call, .registry (.request p .write k)⟩⟩
  | _ => True

/-! ## The invariant -/

/-- Nothing of the calls that `p` has made is left: no message on its way, no request that
waits and no grant that has not been written. -/
structure NothingLeft (s : Exchange) (p : ProcId) (c : Caller) : Prop where
  inbox : c.inbox = []
  outbox : c.outbox = []
  queue : ∀ k, p ∉ (Tracked.queue s.registry.server k).map Prod.fst
  channel : p ∉ s.registry.server.accessManager.accessGranted.buffer.map Prod.fst

/-- A synchronous call starts with nothing left. -/
def Fresh (s : Exchange) : Input → Prop
  | .call p invocation => invocation.access ≠ none → ∀ c, s.callers p = some c →
      c.running = none → NothingLeft s p c
  | _ => True

/-- If its client is in a synchronous call, this is the request of that call. -/
def Current (callers : ProcId → Option Caller) (sent : Sent) : Prop :=
  ∀ c run t k, callers sent.client = some c → c.running = some run →
    run.invocation.access = some (t, k) →
    sent.call = c.calls ∧ sent.message = .registry (.request sent.client t k)

/-- `sent` is a request of `p`, and the one of its synchronous call if there is one. -/
def Asks (callers : ProcId → Option Caller) (sent : Sent) (p : ProcId) (t : RequestType)
    (k : KeyId) : Prop :=
  sent.client = p ∧ sent.message = .registry (.request p t k) ∧ Current callers sent

/-- What `p` is told goes back to a request of its own. -/
def Told (callers : ProcId → Option Caller) (p : ProcId) (h : Heard) : Prop :=
  ∃ t k response, Asks callers h.cause p t k ∧ h.message = .registry (.response response) ∧
    Responds t k response

/-- **The invariant of a client.** -/
structure Honest (callers : ProcId → Option Caller) (p : ProcId) (c : Caller) : Prop where
  id : c.self.procId = p
  outbox : ∀ sent ∈ c.outbox, sent.client = p ∧ Current callers sent ∧
    (sent.message = .registry .stopRequest ∨ ∃ t k, sent.message = .registry (.request p t k))
  inbox : ∀ h ∈ c.inbox, Told callers p h
  running : ∀ run, c.running = some run →
    run.rest.Obeys (Invocation.account (run.invocation.message c.self)) run.invocation.Ends
      (run.heard.map Heard.message) ∧
    ∀ h, run.heard = some h → Told callers p h

/-- **The invariant.** -/
structure Honoured (s : Exchange) : Prop where
  traced : s.registry.Traced (Asks s.callers)
  sockets : ∀ p stream, s.registry.server.tokenStreamMap p = some stream → stream = p
  callers : ∀ p c, s.callers p = some c → Honest s.callers p c

/-! ## The calls in progress -/

variable {callers callers' : ProcId → Option Caller} {p : ProcId} {c : Caller}

/-- A message stays current if its client has started no synchronous call. -/
theorem Current.imp {sent : Sent} (hs : Current callers sent)
    (h : ∀ c' run', callers' sent.client = some c' → c'.running = some run' →
      run'.invocation.access ≠ none → ∃ c run, callers sent.client = some c ∧
        c.running = some run ∧ c.calls = c'.calls ∧ run.invocation = run'.invocation) :
    Current callers' sent := by
  intro c' run' t k hc' hrun' haccess
  obtain ⟨c, run, hc, hrun, hcalls, hinvocation⟩ := h c' run' hc' hrun' (by simp [haccess])
  rw [← hcalls]
  exact hs c run t k hc hrun (hinvocation ▸ haccess)

theorem Told.imp (himp : ∀ sent, sent.client = p → Current callers sent → Current callers' sent)
    {h : Heard} (ht : Told callers p h) : Told callers' p h := by
  obtain ⟨t, k, response, ⟨hclient, hrequest, hcurrent⟩, hmessage, hresponds⟩ := ht
  exact ⟨t, k, response, ⟨hclient, hrequest, himp _ hclient hcurrent⟩, hmessage, hresponds⟩

theorem Honest.imp (himp : ∀ sent, sent.client = p → Current callers sent → Current callers' sent)
    (hc : Honest callers p c) : Honest callers' p c where
  id := hc.id
  outbox := by
    intro sent hsent
    obtain ⟨hclient, hcurrent, hmessage⟩ := hc.outbox sent hsent
    exact ⟨hclient, himp sent hclient hcurrent, hmessage⟩
  inbox := fun heard hheard => (hc.inbox heard hheard).imp himp
  running := by
    intro run hrun
    obtain ⟨hobeys, hheard⟩ := hc.running run hrun
    exact ⟨hobeys, fun heard hh => (hheard heard hh).imp himp⟩

/-! ## A client moves -/

/-- What a synchronous method sends is its request. -/
theorem message_of_access {invocation : Invocation} {t : RequestType} {k : KeyId}
    (h : invocation.access = some (t, k)) (self : ProtocolClient) :
    invocation.message self = some (.registry (.request self.procId t k)) := by
  cases invocation <;> cases h <;> rfl

/-- What a method sends is a request or `StopRequest`. -/
theorem message_shape {invocation : Invocation} {self : ProtocolClient} {message : Message}
    (h : invocation.message self = some message) : message = .registry .stopRequest ∨
      ∃ t k, message = .registry (.request self.procId t k) := by
  cases invocation with
  | create k | delete k | read k | readSync k | write k | writeSync k | release k =>
      cases h
      exact Or.inr ⟨_, k, rfl⟩
  | awaitRead | awaitWrite => cases h
  | stop =>
      cases h
      exact Or.inl rfl

/-- What an operation does to its client. -/
structure Performs (p : ProcId) (c : Caller) (op : SocketOp) (answer : op.Result)
    (received : Option Heard) (c' : Caller) : Prop where
  self : c'.self = c.self
  calls : c'.calls = c.calls
  running : c'.running = c.running
  outbox : ∀ sent ∈ c'.outbox, sent ∈ c.outbox ∨
    ∃ message, op = .call (.writeAll message) ∧ sent = ⟨p, c.calls, message⟩
  inbox : ∀ h ∈ c'.inbox, h ∈ c.inbox
  took : ∀ h, received = some h → h ∈ c.inbox
  next : ∀ toSend (heard : Option Heard),
    (Invocation.account toSend).next (heard.map Heard.message) op answer
      = (received.or heard).map Heard.message

theorem perform_performs {failure : Option IoError} {op : SocketOp} {answer : op.Result}
    {received : Option Heard} {c' : Caller}
    (h : perform p c failure op = some (answer, received, c')) :
    Performs p c op answer received c' := by
  -- a call that writes nothing leaves the client as it is
  have hquiet : ∀ {call : SocketCall} (answer : Option IoError),
      Performs p c (.call call) answer none c := by
    intro call answer
    refine ⟨rfl, rfl, rfl, fun _ hs => Or.inl hs, fun _ hh => hh, by simp, fun toSend heard => ?_⟩
    rfl
  cases op with
  | call call =>
      cases call with
      | writeAll message =>
          cases failure with
          | none =>
              cases h
              refine ⟨rfl, rfl, rfl, fun sent hsent => ?_, fun _ hh => hh, by simp,
                fun toSend heard => rfl⟩
              rcases List.mem_append.1 hsent with hsent | hsent
              · exact Or.inl hsent
              · exact Or.inr ⟨message, rfl, List.mem_singleton.1 hsent⟩
          | some e =>
              cases h
              exact hquiet _
      | peek =>
          cases failure with
          | none =>
              dsimp only [perform] at h
              split at h
              · cases h
              · cases h
                exact hquiet _
          | some e =>
              cases h
              exact hquiet _
      -- there is no other server to connect to
      | connectPrimary | connectSecondary =>
          cases failure with
          | none => cases h
          | some e =>
              cases h
              exact hquiet _
      | setReadTimeout | setWriteTimeout =>
          cases h
          exact hquiet _
  | receive =>
      obtain ⟨self, calls, running, inbox, outbox⟩ := c
      cases failure with
      | some e =>
          cases h
          exact ⟨rfl, rfl, rfl, fun _ hs => Or.inl hs, fun _ hh => hh, by simp,
            fun toSend heard => rfl⟩
      | none =>
          cases inbox with
          | nil => cases h
          -- the first message of the inbox is received
          | cons first inbox =>
              cases h
              refine ⟨rfl, rfl, rfl, fun _ hs => Or.inl hs,
                fun _ hh => List.mem_cons_of_mem first hh, ?_, fun toSend heard => rfl⟩
              rintro h ⟨⟩
              exact List.mem_cons_self

/-- A call that returns has kept to its own grant. -/
theorem returned_ownGrant {run : Running} {r : Except ProtocolClientError Invocation.Returned}
    (hc : callers p = some c) (hrun : c.running = some run) {heard : Option Heard}
    (hends : run.invocation.Ends (heard.map Heard.message) r)
    (htold : ∀ h, heard = some h → Told callers p h) :
    OwnGrant (.returned p c.calls run.invocation heard r) := by
  -- the message that it ends with goes back to the request of this call
  have hgrant : ∀ t k message, run.invocation.access = some (t, k) →
      heard.map Heard.message = some message → ∃ response,
        message = .registry (.response response) ∧ Responds t k response ∧
        heard = some ⟨message, ⟨p, c.calls, .registry (.request p t k)⟩⟩ := by
    intro t k message haccess hheard
    obtain ⟨⟨message', sent⟩, rfl, rfl⟩ := Option.map_eq_some_iff.1 hheard
    obtain ⟨t', k', response, ⟨hclient, hrequest, hcurrent⟩, hresponse, hresponds⟩ := htold _ rfl
    obtain ⟨client, call, request⟩ := sent
    dsimp only at hclient hrequest hcurrent
    subst hclient
    obtain ⟨hcall, hmessage⟩ := hcurrent c run t k hc hrun haccess
    dsimp only at hcall hmessage
    rw [hmessage] at hrequest
    obtain ⟨rfl, rfl⟩ : t = t' ∧ k = k' := by simpa using hrequest
    exact ⟨response, hresponse, hresponds, by rw [hcall, hmessage]⟩
  cases hinv : run.invocation with
  | readSync k =>
      rw [hinv] at hends
      cases r with
      | error e => trivial
      | ok res =>
          obtain ⟨k', addr, hheard, hres⟩ := hends
          obtain ⟨response, hresponse, hresponds, heq⟩ := hgrant .read k _ (by rw [hinv]; rfl) hheard
          obtain rfl : RegistryResponse.holder k' addr = response := by simpa using hresponse
          cases hresponds with
          | holder => exact ⟨addr, hres, heq⟩
  | writeSync k =>
      rw [hinv] at hends
      cases r with
      | error e => trivial
      | ok res =>
          obtain ⟨k', hheard⟩ := hends
          obtain ⟨response, hresponse, hresponds, heq⟩ := hgrant .write k _ (by rw [hinv]; rfl) hheard
          obtain rfl : RegistryResponse.success k' = response := by simpa using hresponse
          cases hresponds with
          | done => exact heq
  | create | delete | read | write | release | awaitRead | awaitWrite | stop => trivial

/-- A call returns or goes on. -/
theorem resume_eq (p : ProcId) (c : Caller) (invocation : Invocation) (heard : Option Heard)
    (rest : ProtocolClient.Method Invocation.Returned) :
    (∃ r, rest = .done r ∧ resume p c invocation heard rest
      = ({ c with running := none }, [.returned p c.calls invocation heard r])) ∨
    resume p c invocation heard rest
      = ({ c with running := some ⟨invocation, heard, rest⟩ }, []) := by
  cases rest with
  | done r => exact Or.inl ⟨r, rfl, rfl⟩
  | call op cont => exact Or.inr rfl

/-- What a client sends is its own, and current if it is a request of a synchronous call. -/
theorem Honest.sends (h : Honest callers p c) (hc : callers p = some c) {run : Running}
    (hrun : c.running = some run) {op : SocketOp} {answer : op.Result} {received : Option Heard}
    {c' : Caller} (hp : Performs p c op answer received c')
    (hallowed : ∀ message, op = .call (.writeAll message) →
      run.invocation.message c.self = some message) :
    ∀ sent ∈ c'.outbox, sent.client = p ∧ Current callers sent ∧
      (sent.message = .registry .stopRequest ∨
        ∃ t k, sent.message = .registry (.request p t k)) := by
  intro sent hsent
  rcases hp.outbox sent hsent with hold | ⟨message, rfl, rfl⟩
  · exact h.outbox sent hold
  · have hmessage := hallowed message rfl
    refine ⟨rfl, fun c'' run' t k hc'' hrun' haccess => ?_, ?_⟩
    · obtain rfl : c = c'' := Option.some.inj (hc.symm.trans hc'')
      obtain rfl : run = run' := Option.some.inj (hrun.symm.trans hrun')
      rw [message_of_access haccess, h.id] at hmessage
      exact ⟨rfl, (Option.some.inj hmessage).symm⟩
    · rw [← h.id]
      exact message_shape hmessage

/-- **A client keeps its invariant** by whatever it does, and what it returns is its own. -/
theorem Honest.proceed (h : Honest callers p c) (hc : callers p = some c)
    (failure : Option IoError) :
    let r := Exchange.proceed p c failure
    Honest callers p r.1 ∧ r.1.calls = c.calls ∧
    (∀ run', r.1.running = some run' → ∃ run, c.running = some run ∧
      run.invocation = run'.invocation) ∧
    ∀ e ∈ r.2, OwnGrant e := by
  -- nothing happens without a running call, or if its system call is still to end
  have hstay : Exchange.proceed p c failure = (c, []) →
      let r := Exchange.proceed p c failure
      Honest callers p r.1 ∧ r.1.calls = c.calls ∧
      (∀ run', r.1.running = some run' → ∃ run, c.running = some run ∧
        run.invocation = run'.invocation) ∧ ∀ e ∈ r.2, OwnGrant e := by
    intro hnothing
    rw [hnothing]
    exact ⟨h, rfl, fun run' hrun' => ⟨run', hrun', rfl⟩, by simp⟩
  cases hrun : c.running with
  | none => exact hrun ▸ hstay (by simp [Exchange.proceed, hrun])
  | some run =>
      obtain ⟨invocation, heard, rest⟩ := run
      cases rest with
      | done r => exact hrun ▸ hstay (by simp [Exchange.proceed, hrun])
      | call op cont =>
          cases hperform : perform p c failure op with
          | none => exact hrun ▸ hstay (by simp [Exchange.proceed, hrun, hperform])
          | some performed =>
              obtain ⟨answer, received, c'⟩ := performed
              have hproceed : Exchange.proceed p c failure
                  = resume p c' invocation (received.or heard) (cont answer) := by
                simp [Exchange.proceed, hrun, hperform]
              rw [hproceed]
              have hp := perform_performs hperform
              obtain ⟨⟨hallowed, hobeys⟩, htold⟩ := h.running _ hrun
              have hnext := hobeys answer
              rw [hp.next] at hnext
              -- what it has heard last was heard before, or has been taken from the inbox
              have hheard : ∀ h, received.or heard = some h → Told callers p h := by
                intro heard' hheard'
                cases received with
                | none => exact htold heard' hheard'
                | some first =>
                    cases hheard'
                    exact h.inbox _ (hp.took _ rfl)
              have houtbox := h.sends hc hrun hp hallowed
              have hkeeps : ∀ running : Option Running, (∀ run, running = some run →
                  run.rest.Obeys (Invocation.account (run.invocation.message c'.self))
                    run.invocation.Ends (run.heard.map Heard.message) ∧
                  ∀ h, run.heard = some h → Told callers p h) →
                  Honest callers p { c' with running } := fun running hrunning =>
                ⟨hp.self ▸ h.id, houtbox, fun first hfirst => h.inbox first (hp.inbox first hfirst),
                  hrunning⟩
              dsimp only
              rcases resume_eq p c' invocation (received.or heard) (cont answer) with
                ⟨r, hdone, hresume⟩ | hresume
              · rw [hresume]
                rw [hdone] at hnext
                refine ⟨hkeeps none (by rintro run ⟨⟩), hp.calls, by rintro run' ⟨⟩, ?_⟩
                intro e he
                rw [List.mem_singleton.1 he, hp.calls]
                exact returned_ownGrant hc hrun hnext hheard
              · rw [hresume]
                refine ⟨hkeeps _ ?_, hp.calls, ?_, by simp⟩
                · rintro run ⟨⟩
                  rw [hp.self]
                  exact ⟨hnext, hheard⟩
                · rintro run' ⟨⟩
                  exact ⟨_, rfl, rfl⟩

/-! ## A step of the exchange -/

variable {s : Exchange}

/-- A client has started a call. -/
theorem Honoured.call (h : Honoured s) (hc : s.callers p = some c) {invocation : Invocation}
    (hfresh : invocation.access ≠ none → NothingLeft s p c) :
    Honoured (s.setCaller p (some (begin c invocation))) := by
  have hself := h.callers p c hc
  -- what is current stays so, unless the call is synchronous and the message is of its client
  have hcurrent : ∀ sent, (invocation.access ≠ none → sent.client ≠ p) → Current s.callers sent →
      Current (Function.update s.callers p (some (begin c invocation))) sent := by
    intro sent hother hs
    refine hs.imp fun c' run' hc' hrun' haccess => ?_
    by_cases hp : sent.client = p
    · rw [hp, Function.update_self] at hc'
      cases hc'
      cases hrun'
      exact absurd hp (hother haccess)
    · rw [Function.update_of_ne hp] at hc'
      exact ⟨c', run', hc', hrun', rfl, rfl⟩
  have hasks : ∀ sent q t k, (invocation.access ≠ none → q ≠ p) → Asks s.callers sent q t k →
      Asks (Function.update s.callers p (some (begin c invocation))) sent q t k := by
    rintro sent q t k hother ⟨rfl, hrequest, hs⟩
    exact ⟨rfl, hrequest, hcurrent sent hother hs⟩
  refine ⟨h.traced.imp (fun k e he o => hasks o _ _ _ fun haccess hp => ?_)
    (fun a ha o => hasks o _ _ _ fun haccess hp => ?_), h.sockets, fun q c' hc' => ?_⟩
  · exact (hfresh haccess).queue k (hp ▸ List.mem_map_of_mem he)
  · exact (hfresh haccess).channel (hp ▸ List.mem_map_of_mem ha)
  · by_cases hq : q = p
    · subst hq
      rw [setCaller_callers, Function.update_self] at hc'
      cases hc'
      have hrunning : ∀ run, (begin c invocation).running = some run →
          run.rest.Obeys (Invocation.account (run.invocation.message c.self)) run.invocation.Ends
            (run.heard.map Heard.message) ∧
          ∀ h, run.heard = some h →
            Told (Function.update s.callers q (some (begin c invocation))) q h := by
        rintro run ⟨⟩
        exact ⟨Invocation.method_obeys c.self invocation none, by rintro - ⟨⟩⟩
      -- a synchronous call starts with empty boxes, any other leaves them
      by_cases haccess : invocation.access = none
      · have hold : Honest (Function.update s.callers q (some (begin c invocation))) q c :=
          hself.imp fun sent _ => hcurrent sent fun hno => absurd haccess hno
        exact ⟨hself.id, hold.outbox, hold.inbox, hrunning⟩
      · have hnothing := hfresh haccess
        refine ⟨hself.id, fun sent hsent => ?_, fun first hfirst => ?_, hrunning⟩
        · dsimp only [begin] at hsent
          rw [hnothing.outbox] at hsent
          cases hsent
        · dsimp only [begin] at hfirst
          rw [hnothing.inbox] at hfirst
          cases hfirst
    · rw [setCaller_callers, Function.update_of_ne hq] at hc'
      exact (h.callers q c' hc').imp fun sent hsent => hcurrent sent fun _ => hsent ▸ hq

/-- No client has started a call. -/
theorem Honoured.of_continues {s' : Exchange}
    (hregistry : s'.registry.Traced (Asks s.callers))
    (hsockets : ∀ p stream, s'.registry.server.tokenStreamMap p = some stream → stream = p)
    (hcontinues : ∀ q c' run', s'.callers q = some c' → c'.running = some run' →
      ∃ c run, s.callers q = some c ∧ c.running = some run ∧ c.calls = c'.calls ∧
        run.invocation = run'.invocation)
    (hcallers : ∀ q c', s'.callers q = some c' → Honest s.callers q c') : Honoured s' := by
  have hcurrent : ∀ sent, Current s.callers sent → Current s'.callers sent := fun sent hs =>
    hs.imp fun c' run' hc' hrun' _ => hcontinues sent.client c' run' hc' hrun'
  have hasks : ∀ sent q t k, Asks s.callers sent q t k → Asks s'.callers sent q t k :=
    fun sent q t k hs => ⟨hs.1, hs.2.1, hcurrent sent hs.2.2⟩
  exact ⟨hregistry.imp (fun k e _ o => hasks o _ _ _) (fun a _ o => hasks o _ _ _), hsockets,
    fun q c' hc' => (hcallers q c' hc').imp fun sent _ => hcurrent sent⟩

theorem Honoured.proceed (h : Honoured s) (hc : s.callers p = some c) (failure : Option IoError) :
    Honoured (s.setCaller p (some (Exchange.proceed p c failure).1)) ∧
    ∀ e ∈ (Exchange.proceed p c failure).2, OwnGrant e := by
  obtain ⟨hself, hcalls, hinvocation, hreturned⟩ := (h.callers p c hc).proceed hc failure
  refine ⟨.of_continues h.traced h.sockets (fun q c' run' hc' hrun' => ?_) (fun q c' hc' => ?_),
    hreturned⟩
  · by_cases hq : q = p
    · subst hq
      rw [setCaller_callers, Function.update_self] at hc'
      obtain rfl := Option.some.inj hc'
      obtain ⟨run, hrun, hsame⟩ := hinvocation run' hrun'
      exact ⟨c, run, hc, hrun, hcalls.symm, hsame⟩
    · rw [setCaller_callers, Function.update_of_ne hq] at hc'
      exact ⟨c', run', hc', hrun', rfl, rfl⟩
  · by_cases hq : q = p
    · subst hq
      rw [setCaller_callers, Function.update_self] at hc'
      exact Option.some.inj hc' ▸ hself
    · rw [setCaller_callers, Function.update_of_ne hq] at hc'
      exact h.callers q c' hc'

/-- The registry reads nothing. -/
theorem Honoured.idle (h : Honoured s) {input : RegistryServer.Input Message}
    (hmanager : (RegistryServer.step Serde.direct s.registry.server input).1.accessManager
      = s.registry.server.accessManager)
    (hsockets : ∀ p stream,
      (RegistryServer.step Serde.direct s.registry.server input).1.tokenStreamMap p = some stream →
        stream = p) : Honoured (s.idle input) :=
  ⟨h.traced.same hmanager, hsockets, h.callers⟩

/-- What the registry writes for a request is for the client that it goes back to. -/
theorem told_of_goes {r : RegistryServer} (hsockets : ∀ p stream,
      r.tokenStreamMap p = some stream → stream = p) {sent : Sent} {t : RequestType} {k : KeyId}
    (hsent : Asks callers sent p t k) {x : (TcpStream × Message) × Sent}
    (hx : Goes (Asks callers) r p t k sent x) : Told callers x.1.1 ⟨x.1.2, x.2⟩ := by
  cases hx with
  | answer response hresponds => exact ⟨t, k, response, hsent, rfl, hresponds⟩
  | grant o q u l stream response hfits hstream hgrants =>
      obtain rfl := hsockets q stream hstream
      exact ⟨u, l, response, hfits, rfl, hgrants.responds⟩

/-- What the registry makes of a message of `p`. -/
theorem Honoured.handles (h : Honoured s) {sent : Sent} (hclient : sent.client = p)
    (hcurrent : Current s.callers sent) (hmessage : sent.message = .registry .stopRequest ∨
      ∃ t k, sent.message = .registry (.request p t k))
    (hstream : s.registry.server.tokenStreamMap p = some p)
    (hbackup : p ≠ s.registry.server.backupToken) (env : Env) :
    let r := s.registry.step (fun _ => sent) (.readable env p (.data sent.message))
    r.1.Traced (Asks s.callers) ∧
    r.1.server.tokenStreamMap = s.registry.server.tokenStreamMap ∧
    ∀ q, ∀ first ∈ heardBy q r.2.attributed, Told s.callers q first := by
  intro r
  have hheard : (∀ x ∈ r.2.attributed, Told s.callers x.1.1 ⟨x.1.2, x.2⟩) →
      ∀ q, ∀ first ∈ heardBy q r.2.attributed, Told s.callers q first := by
    intro htold q first hfirst
    obtain ⟨x, hx, hq⟩ := List.mem_filterMap.1 hfirst
    split at hq
    · rename_i hsocket
      obtain rfl := Option.some.inj hq
      exact hsocket ▸ htold x hx
    · cases hq
  -- a client sends nothing else
  rcases hmessage with hstop | ⟨t, k, hrequest⟩
  · obtain ⟨htraced, hmap, hnothing⟩ := h.traced.stop (fun _ => sent) env hbackup hstream
    rw [← hstop] at htraced hmap hnothing
    refine ⟨htraced, hmap, hheard fun x hx => ?_⟩
    rw [hnothing] at hx
    cases hx
  · have hasks : Asks s.callers sent p t k := ⟨hclient, hrequest, hcurrent⟩
    obtain ⟨htraced, hmap, hgoes⟩ := h.traced.request (fun _ => sent) env hbackup hstream hasks
    rw [← hrequest] at htraced hmap hgoes
    exact ⟨htraced, hmap, hheard fun x hx => told_of_goes h.sockets hasks (hgoes x hx)⟩

/-- **The registry keeps the invariant** when it reads a message. -/
theorem Honoured.serve (h : Honoured s) (hc : s.callers p = some c) {sent : Sent}
    {outbox : List Sent} (houtbox : c.outbox = sent :: outbox)
    (hsocket : s.registry.server.tokenStreamMap p ≠ none)
    (hbackup : p ≠ s.registry.server.backupToken) (env : Env) :
    Honoured ((s.setCaller p (some { c with outbox })).handle env p sent) := by
  have hself := h.callers p c hc
  obtain ⟨hclient, hcurrent, hmessage⟩ := hself.outbox sent (houtbox ▸ List.mem_cons_self)
  obtain ⟨stream, hstream⟩ := Option.ne_none_iff_exists'.1 hsocket
  obtain rfl := h.sockets p stream hstream
  obtain ⟨htraced, hmap, hheard⟩ := h.handles hclient hcurrent hmessage hstream hbackup env
  -- taking the message out of its outbox is no matter to the calls
  have hbefore : ∀ q c', (s.setCaller stream (some { c with outbox })).callers q = some c' →
      ∃ c₀, s.callers q = some c₀ ∧ c'.running = c₀.running ∧ c'.calls = c₀.calls ∧
        Honest s.callers q c' := by
    intro q c' hc'
    by_cases hq : q = stream
    · subst hq
      rw [setCaller_callers, Function.update_self] at hc'
      obtain rfl := Option.some.inj hc'
      refine ⟨c, hc, rfl, rfl, hself.id, fun sent' hsent' => ?_, hself.inbox, hself.running⟩
      exact hself.outbox sent' (houtbox ▸ List.mem_cons_of_mem sent hsent')
    · rw [setCaller_callers, Function.update_of_ne hq] at hc'
      exact ⟨c', hc', rfl, rfl, h.callers q c' hc'⟩
  refine .of_continues htraced (fun q stream' hstream' => ?_) (fun q c' run' hc' hrun' => ?_)
    (fun q c' hc' => ?_)
  · exact h.sockets q stream' (hmap ▸ hstream')
  · obtain ⟨c₁, hc₁, rfl⟩ := Option.map_eq_some_iff.1 hc'
    obtain ⟨c₀, hc₀, hrunning, hcalls, -⟩ := hbefore q c₁ hc₁
    exact ⟨c₀, run', hc₀, hrunning ▸ hrun', hcalls.symm, rfl⟩
  · obtain ⟨c₁, hc₁, rfl⟩ := Option.map_eq_some_iff.1 hc'
    obtain ⟨-, -, -, -, hhonest⟩ := hbefore q c₁ hc₁
    refine ⟨hhonest.id, hhonest.outbox, fun first hfirst => ?_, hhonest.running⟩
    rcases List.mem_append.1 hfirst with hold | hnew
    · exact hhonest.inbox first hold
    · exact hheard q first hnew

/-- A client that connects is in no call and knows its token. -/
theorem greet_honest {isPrimary : Bool} {messages : List Message}
    (hmessages : messages = [] ∨ messages = [.registry (.connection p)])
    (hc : greet isPrimary messages = some c) : Honest callers p c ∧ c.running = none := by
  rcases hmessages with rfl | rfl
  · cases hc
  · cases isPrimary <;> cases hc <;>
      exact ⟨⟨rfl, by rintro sent ⟨⟩, by rintro first ⟨⟩, by rintro run ⟨⟩⟩, rfl⟩

theorem Honoured.connect (h : Honoured s) (env : Env) (addr : SocketAddr) (isPrimary : Bool) :
    Honoured (s.step (.connect env addr isPrimary)).1 := by
  dsimp only [Exchange.step]
  obtain ⟨token, htoken⟩ : ∃ token, token = s.registry.server.nextToken := ⟨_, rfl⟩
  rw [← htoken]
  have haccepted := RegistryServer.step_accepted Serde.direct env s.registry.server token addr
  -- what is written is the greeting, or nothing
  have hgreeting : ∃ messages, messages = ((RegistryServer.step Serde.direct s.registry.server
      (.connection env token addr)).2.flatMap RegistryServer.Served.written).map Prod.snd ∧
      (messages = [] ∨ messages = [.registry (.connection token)]) := by
    obtain ⟨first, hfirst, hcases⟩ := RegistryServer.handleConnection_writes Serde.direct env token
      addr s.registry.server.enter
    refine ⟨first.map Prod.snd, ?_, ?_⟩
    · show _ = (((RegistryServer.handleConnection Serde.direct env token addr).run
        s.registry.server.enter).2.written ++ []).map Prod.snd
      rw [hfirst, List.append_nil]
      rfl
    · rw [htoken]
      rcases hcases with rfl | rfl
      · exact Or.inl rfl
      · exact Or.inr rfl
  obtain ⟨messages, hwritten, hmessages⟩ := hgreeting
  rw [← hwritten]
  -- the token is new, so no socket of another client changes
  have hidle : Honoured (s.idle (.connection env token addr)) := by
    refine h.idle haccepted.manager fun q stream hstream => ?_
    rcases haccepted.stream_cases q with ⟨hq, hnew⟩ | hold
    · obtain rfl := Option.some.inj (hnew.symm.trans hstream)
      rw [hq, htoken]
    · exact h.sockets q stream (hold ▸ hstream)
  refine .of_continues hidle.traced hidle.sockets (fun q c' run' hc' hrun' => ?_)
    (fun q c' hc' => ?_)
  · by_cases hq : q = token
    · subst hq
      rw [setCaller_callers, Function.update_self] at hc'
      have hgreeted : Honest s.callers q c' ∧ c'.running = none := greet_honest hmessages hc'
      rw [hgreeted.2] at hrun'
      cases hrun'
    · rw [setCaller_callers, Function.update_of_ne hq] at hc'
      exact ⟨c', run', hc', hrun', rfl, rfl⟩
  · by_cases hq : q = token
    · subst hq
      rw [setCaller_callers, Function.update_self] at hc'
      exact (greet_honest hmessages hc').1
    · rw [setCaller_callers, Function.update_of_ne hq] at hc'
      exact h.callers q c' hc'

/-- The registry finds no message in the socket that it reads. -/
theorem Honoured.unread (h : Honoured s) (env : Env) (p : ProcId) {read : ReadResult Message}
    (hread : ∀ data, read ≠ .data data) : Honoured (s.idle (.readable env p read)) := by
  have hreadable := RegistryServer.step_readable Serde.direct env s.registry.server p read
  exact h.idle (hreadable.quiet (Or.inl hread)) fun q stream hstream =>
    h.sockets q stream (hreadable.stream_before hstream)

theorem Honoured.step (h : Honoured s) (i : Input) (hfresh : Fresh s i) :
    Honoured (s.step i).1 ∧ ∀ e ∈ (s.step i).2, OwnGrant e := by
  -- most inputs find nothing to do
  have hstay : Honoured s ∧ ∀ e ∈ ([] : List Event), OwnGrant e := ⟨h, by simp⟩
  cases i with
  | connect env addr isPrimary => exact ⟨h.connect env addr isPrimary, by simp [Exchange.step]⟩
  | call p invocation =>
      dsimp only [Exchange.step]
      cases hc : s.callers p with
      | none => exact hstay
      | some c =>
          dsimp only
          split
          · rename_i hidle
            refine ⟨h.call hc fun haccess => ?_, by simp⟩
            exact hfresh haccess c hc (Option.isNone_iff_eq_none.1 hidle)
          · exact hstay
  | proceed p failure =>
      dsimp only [Exchange.step]
      cases hc : s.callers p with
      | none => exact hstay
      | some c => exact h.proceed hc failure
  | serve p env =>
      dsimp only [Exchange.step]
      cases hc : s.callers p with
      | none => exact hstay
      | some c =>
          dsimp only
          cases houtbox : c.outbox with
          | nil => exact hstay
          | cons sent outbox =>
              cases hsocket : s.registry.server.tokenStreamMap p with
              | none => exact hstay
              | some stream =>
                  dsimp only
                  split
                  · exact hstay
                  · rename_i hbackup
                    refine ⟨h.serve hc houtbox ?_ hbackup env, by simp⟩
                    rw [hsocket]
                    exact Option.some_ne_none stream
  | hangup p env failure =>
      refine ⟨?_, by simp [Exchange.step]⟩
      cases failure with
      | none => exact h.unread env p (by simp)
      | some e => exact h.unread env p (by simp)

theorem start_honoured (secondaryServer : Option (SocketAddr × TcpStream)) :
    Honoured (machine secondaryServer).start where
  traced := ⟨AccessManager.valid_new, by rintro a ⟨⟩, fun _ => .nil, .nil⟩
  sockets := by rintro p stream ⟨⟩
  callers := by rintro p c ⟨⟩

/-- **A synchronous call accepts its own grant**, in every run in which it starts with nothing
of earlier calls left. -/
theorem own_grant (secondaryServer : Option (SocketAddr × TcpStream)) (inputs : List Input)
    (hfresh : (machine secondaryServer).Along Fresh (machine secondaryServer).start inputs) :
    ∀ e ∈ ((machine secondaryServer).run inputs).2, OwnGrant e := by
  refine (IOMachine.run_induction_along (fun s log => Honoured s ∧ ∀ e ∈ log, OwnGrant e)
    ⟨start_honoured secondaryServer, by simp⟩ ?_ inputs hfresh).2
  rintro s log i hi ⟨hs, hlog⟩
  obtain ⟨hs', hevents⟩ := hs.step i hi
  refine ⟨hs', fun e he => ?_⟩
  rcases List.mem_append.1 he with he | he
  · exact hlog e he
  · exact hevents e he

/-! ## A late grant -/

/-- The inputs of a call on which everybody acts at once. -/
def promptCall (p : ProcId) (invocation : Invocation) : List Input :=
  [.call p invocation, .proceed p none, .serve p (Env.calm .ascending), .proceed p none,
    .proceed p none]

/-- After the primary registry a client has connected and created two keys. -/
def keysInputs : List Input :=
  [.connect (Env.calm .ascending) ⟨"127.0.0.1", 8888⟩ true,
    .connect (Env.calm .ascending) ⟨"127.0.0.1", 4001⟩ false] ++
  promptCall 1 (.create 0) ++ promptCall 1 (.create 1)

/-- The client writes the first key, asks for it once more, gives up waiting, and releases it;
then it asks for the other key. -/
def lateInputs : List Input :=
  keysInputs ++ promptCall 1 (.writeSync 0) ++ promptCall 1 (.writeSync 0) ++
  [.proceed 1 (some ⟨.wouldBlock, "Resource temporarily unavailable (os error 11)"⟩)] ++
  promptCall 1 (.release 0) ++ promptCall 1 (.writeSync 1)

/-- The client is let into key 1 by the late grant of key 0. -/
theorem lateGrant_accepted :
    ¬ ∀ (secondaryServer : Option (SocketAddr × TcpStream)) (inputs : List Input),
      ∀ e ∈ ((machine secondaryServer).run inputs).2, OwnGrant e := by
  intro h
  have hreturned : Event.returned 1 6 (.writeSync 1)
      (some ⟨.registry (.response (.success 0)), ⟨1, 4, .registry (.request 1 .write 0)⟩⟩)
      (.ok (none, none)) ∈ ((machine none).run lateInputs).2 := by decide
  have hown := h none lateInputs _ hreturned
  simp [OwnGrant] at hown

/-- A client that has created two keys writes one of them. -/
theorem own_grant_prompt :
    ((machine none).run (keysInputs ++ promptCall 1 (.writeSync 0))).2.Forall OwnGrant := by
  refine List.forall_iff_forall_mem.2 (own_grant none _ ((IOMachine.along_append _ _ _ _ _).2
    ⟨?_, ?_, trivial, trivial, trivial, trivial, trivial⟩))
  · exact ⟨trivial, trivial, fun hno => absurd rfl hno, trivial, trivial, trivial, trivial,
      fun hno => absurd rfl hno, trivial, trivial, trivial, trivial, trivial⟩
  · intro _ c hc _
    -- the client has got its answers, and no key has a queue
    have hboxes : (((machine none).run keysInputs).1.callers 1).map (fun c => (c.inbox, c.outbox))
        = some ([], []) := by decide
    have hkeys : ((machine none).run keysInputs).1.registry.server.accessManager.keyStates
        = Function.update (Function.update (fun _ => none) 0 (some (KeyState.new 1))) 1
          (some (KeyState.new 1)) := by rfl
    have hempty : ∀ k, Tracked.queue ((machine none).run keysInputs).1.registry.server k = [] := by
      intro k
      rw [Tracked.queue, hkeys]
      by_cases hfirst : k = 1
      · rw [hfirst, Function.update_self]
        rfl
      · rw [Function.update_of_ne hfirst]
        by_cases hzero : k = 0
        · rw [hzero, Function.update_self]
          rfl
        · rw [Function.update_of_ne hzero]
          rfl
    rw [show ((machine none).run keysInputs).1.callers 1 = some c from hc] at hboxes
    obtain ⟨hinbox, houtbox⟩ := Prod.ext_iff.1 (Option.some.inj hboxes)
    refine ⟨hinbox, houtbox, fun k => ?_, by decide⟩
    show 1 ∉ (Tracked.queue ((machine none).run keysInputs).1.registry.server k).map Prod.fst
    rw [hempty k]
    simp

end Exchange

end Soros
