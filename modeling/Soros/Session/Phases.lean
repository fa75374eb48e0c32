import Soros.RegistryServer.Requests
import Soros.Session.Basic

set_option autoImplicit false

/-! # Where a call of a client stands

`Phase` follows a call from its start to its return: the program that is left of it, what is
on the way in either direction, and what the registry thinks of the client meanwhile. Each
request of a client is in exactly one place: with the client, on its way to the registry, in a
queue of the registry, or answered.

The lemmas of this file are about one client; `Session/Exclusion.lean` puts them together. -/

namespace Soros

open RwLock

namespace ProtocolClient

variable (self : ProtocolClient)

/-! ## The stages of a call -/

/-- The message that a call sends. -/
def request (t : RequestType) (k : KeyId) : Message := .registry (.request self.procId t k)

/-- What is left of a call when its request is sent and the connection has been found active. -/
def settle (t : RequestType) (k : KeyId) : Method (Option SocketAddr) :=
  match t with
  | .create | .delete | .release => do registryExpectSuccess k; pure none
  | .read => do let addr ← awaitReadSync; pure (some addr)
  | .write => do awaitWriteSync; pure none

/-- What is left of a call when its request is sent. -/
def confirm (t : RequestType) (k : KeyId) : Method (Option SocketAddr) := do
  confirmSent self (self.request t k)
  settle t k

/-- What is left of a call that has been told to wait. -/
def awaitGrant (m : Mode) (k : KeyId) : Method (Option SocketAddr) :=
  match m with
  | .read => do let res ← awaitReadGrant k; pure (some res.2)
  | .write => do let _res ← awaitWriteGrant k; pure none

theorem syncCall_eq (t : RequestType) (k : KeyId) :
    self.syncCall t k = self.registrySendRequest k t >>= fun _ => settle t k := by
  cases t <;> simp only [syncCall, registryCreate, registryDelete, registryRelease,
    registryReadSync, registryRead, registryWriteSync, registryWrite, bind_assoc] <;> rfl

/-- A call begins by writing its request. -/
theorem syncCall_writes (t : RequestType) (k : KeyId) :
    ∃ rest, self.syncCall t k = .call (.call (.writeAll (self.request t k))) rest ∧
      rest (none : Option IoError) = self.confirm t k := by
  rw [syncCall_eq]
  exact ⟨_, rfl, rfl⟩

theorem confirm_peeks (t : RequestType) (k : KeyId) :
    ∃ rest, self.confirm t k = .call (.call .peek) rest ∧
      rest (none : Option IoError) = settle t k :=
  ⟨_, rfl, rfl⟩

/-- The result of a call that is answered for good. -/
def outcome (t : RequestType) (k : KeyId) : RegistryResponse →
    Except ProtocolClientError (Option SocketAddr)
  | .error text => .error (.registryError text)
  | .success k' =>
      match t with
      | .read => .error .unexpectedResponse
      | .write => .ok none
      | _ => if k = k' then .ok none else .error .unexpectedResponse
  | .holder _ addr =>
      match t with
      | .read => .ok (some addr)
      | _ => .error .unexpectedResponse
  | .wait k => .error (.waitError k)
  | .ack => .error .unexpectedResponse

theorem settle_receives (t : RequestType) (k : KeyId) :
    ∃ rest, settle t k = .call .receive rest ∧
      ∀ response, (∀ k', response ≠ .wait k') →
        rest (.ok (.registry (.response response)) : Except ProtocolClientError Message)
          = .done (outcome t k response) := by
  cases t with
  | create | delete | release =>
      refine ⟨_, rfl, fun response hwait => ?_⟩
      cases response with
      | wait k' => exact absurd rfl (hwait k')
      | success k' =>
          show ((if k = k' then pure () else Prog.throw .unexpectedResponse : Method Unit)
            >>= fun _ => pure none) = .done (if k = k' then .ok none else .error .unexpectedResponse)
          split <;> rfl
      | ack | holder | error => rfl
  | read | write =>
      refine ⟨_, rfl, fun response hwait => ?_⟩
      cases response with
      | wait k' => exact absurd rfl (hwait k')
      | success k' => rfl
      | ack | holder | error => rfl

theorem settle_waits (m : Mode) (k : KeyId) :
    ∃ rest, settle (requestOf m) k = .call .receive rest ∧
      ∀ k', rest (.ok (.registry (.response (.wait k'))) : Except ProtocolClientError Message)
        = awaitGrant m k' := by
  cases m with
  | read =>
      refine ⟨_, rfl, fun k' => ?_⟩
      show (awaitReadGrant k' >>= fun res => pure res.2) >>= _ = _
      rw [bind_assoc]
      rfl
  | write =>
      refine ⟨_, rfl, fun k' => ?_⟩
      show (awaitWriteGrant k' >>= fun _ => pure ()) >>= _ = _
      rw [bind_assoc]
      rfl

theorem awaitGrant_calls (m : Mode) (k : KeyId) :
    ∃ rest, awaitGrant m k = .call .receive rest := by
  cases m <;> exact ⟨_, rfl⟩

theorem awaitGrant_receives {m : Mode} {k : KeyId} {response : RegistryResponse}
    (h : Grants k (requestOf m) response) :
    ∃ rest, awaitGrant m k = .call .receive rest ∧
      rest (.ok (.registry (.response response)) : Except ProtocolClientError Message)
        = .done (outcome (requestOf m) k response) := by
  cases m with
  | read =>
      cases h with
      | read addr =>
          refine ⟨_, rfl, ?_⟩
          show ((if k ≠ k then Prog.throw .unexpectedResponse else pure (k, addr) : Method _)
            >>= fun res => pure (some res.2)) = _
          rw [if_neg (by simp)]
          rfl
  | write =>
      cases h with
      | write =>
          refine ⟨_, rfl, ?_⟩
          show ((if k ≠ k then Prog.throw .unexpectedResponse else pure k : Method _)
            >>= fun _ => pure none) = _
          rw [if_neg (by simp)]
          rfl

end ProtocolClient

namespace Session

open ProtocolClient (request settle confirm awaitGrant outcome)

/-! ## Phases -/

/-- A response as a message. -/
def said (response : RegistryResponse) : Message := .registry (.response response)

/-- A response that settles a request. -/
inductive Final (t : RequestType) (k : KeyId) : RegistryResponse → Prop where
  | refused (text : String) : Final t k (.error text)
  | done (ht : t ≠ .read ∧ t ≠ .write) : Final t k (.success k)
  | granted (response : RegistryResponse) (h : Grants k t response) : Final t k response

/-- A request that had to wait: it is in the queue, or its grant is on the way. -/
inductive Pending (entries : KeyId → List RequestType) (access : KeyId → Option RequestType)
    (m : Mode) (k : KeyId) : List Message → Prop where
  | queued (he : ∀ k', entries k' = if k' = k then [requestOf m] else []) :
      Pending entries access m k []
  | granted (response : RegistryResponse) (he : ∀ k', entries k' = [])
      (h : Grants k (requestOf m) response) (ha : access k = some (requestOf m)) :
      Pending entries access m k [said response]

/-- What is left of the call in progress, what is on the way to and from the client, and what
the registry has of it: the requests `entries` that it queues and the `access` it has given. -/
inductive Phase (self : ProtocolClient) (entries : KeyId → List RequestType)
    (access : KeyId → Option RequestType) :
    Option (RequestType × KeyId × ProtocolClient.Method (Option SocketAddr)) →
    List Message → List Message → Prop where
  | idle (he : ∀ k, entries k = []) : Phase self entries access none [] []
  | starting (t : RequestType) (k : KeyId) (he : ∀ k, entries k = []) :
      Phase self entries access (some (t, k, self.syncCall t k)) [] []
  | requested (t : RequestType) (k : KeyId) (he : ∀ k, entries k = []) :
      Phase self entries access (some (t, k, self.confirm t k)) [] [self.request t k]
  | answered (t : RequestType) (k : KeyId) (response : RegistryResponse)
      (rest : ProtocolClient.Method (Option SocketAddr))
      (hrest : rest = self.confirm t k ∨ rest = settle t k) (he : ∀ k, entries k = [])
      (hfinal : Final t k response) (ha : Grants k t response → access k = some t) :
      Phase self entries access (some (t, k, rest)) [said response] []
  | waited (m : Mode) (k : KeyId) (rest : ProtocolClient.Method (Option SocketAddr))
      (inbox : List Message)
      (hrest : rest = self.confirm (requestOf m) k ∨ rest = settle (requestOf m) k)
      (hpending : Pending entries access m k inbox) :
      Phase self entries access (some (requestOf m, k, rest)) (said (.wait k) :: inbox) []
  | waiting (m : Mode) (k : KeyId) (inbox : List Message)
      (hpending : Pending entries access m k inbox) :
      Phase self entries access (some (requestOf m, k, awaitGrant m k)) inbox []

/-- **The invariant of a client.** What the client believes of its access is what the registry
has given it. -/
structure Good (p : ProcId) (entries : KeyId → List RequestType)
    (access : KeyId → Option RequestType) (c : Client) : Prop where
  id : c.self.procId = p
  phase : Phase c.self entries access c.running c.inbox c.outbox
  inside : ∀ k a, c.inside k = some a → access k = some a
  releasing : ∀ k rest, c.running = some (.release, k, rest) → c.inside k = none

variable {p : ProcId} {entries entries' : KeyId → List RequestType}
  {access access' : KeyId → Option RequestType} {c : Client}

/-! ## The client moves -/

theorem Good.begin (h : Good p entries access c) (hidle : c.running = none) (t : RequestType)
    (k : KeyId) : Good p entries access (begin c t k) := by
  have hphase := h.phase
  rw [hidle] at hphase
  refine ⟨h.id, ?_, ?_, ?_⟩
  · show Phase c.self entries access (some (t, k, c.self.syncCall t k)) c.inbox c.outbox
    generalize c.inbox = inbox, c.outbox = outbox at hphase
    cases hphase with
    | idle he => exact .starting t k he
  · intro k' a hk'
    -- a release is inside no longer, before it is asked for
    dsimp only [Session.begin] at hk'
    split at hk'
    · by_cases heq : k' = k
      · simp [heq] at hk'
      · rw [Function.update_of_ne heq] at hk'
        exact h.inside k' a hk'
    · exact h.inside k' a hk'
  · rintro k' rest hrunning
    obtain ⟨rfl, rfl, -⟩ : t = .release ∧ k = k' ∧ _ := by
      simpa [Session.begin] using hrunning
    simp [Session.begin]

/-- What a client learns from a call that returns is true. -/
theorem learn_access {inside : KeyId → Option RequestType} {t : RequestType} {k : KeyId}
    {response : RegistryResponse} (h : ∀ k a, inside k = some a → access k = some a)
    (hfinal : Final t k response) (ha : Grants k t response → access k = some t) :
    ∀ k' a, learn inside t k (outcome t k response) k' = some a → access k' = some a := by
  -- what the client learns is the access that it has been granted
  have hgranted : Grants k t response →
      ∀ k' a, Function.update inside k (some t) k' = some a → access k' = some a := by
    intro hgrants k' a hk'
    by_cases heq : k' = k
    · subst heq
      rw [Function.update_self] at hk'
      rw [ha hgrants, hk']
    · rw [Function.update_of_ne heq] at hk'
      exact h k' a hk'
  cases hfinal with
  | refused text => cases t <;> exact h
  | done ht =>
      cases t with
      | create | delete | release => exact h
      | read => exact absurd rfl ht.1
      | write => exact absurd rfl ht.2
  | granted _ hgrants =>
      cases hgrants with
      | read addr => exact hgranted (.read addr)
      | write => exact hgranted .write

/-- A call that returns leaves the client idle. -/
theorem Good.finish (h : Good p entries access c) {t : RequestType} {k : KeyId}
    {response : RegistryResponse} (he : ∀ k, entries k = []) (hfinal : Final t k response)
    (ha : Grants k t response → access k = some t) {inbox outbox : List Message}
    (hinbox : inbox = []) (houtbox : outbox = []) :
    Good p entries access
      (resume p { c with inbox, outbox } t k (.done (outcome t k response))).1 := by
  refine ⟨h.id, ?_, learn_access h.inside hfinal ha, by rintro k' rest ⟨⟩⟩
  show Phase c.self entries access none inbox outbox
  rw [hinbox, houtbox]
  exact .idle he

/-- A client goes on with another part of the same call. -/
theorem Good.advance (h : Good p entries access c) {t : RequestType} {k : KeyId}
    {rest rest' : ProtocolClient.Method (Option SocketAddr)} {inbox outbox : List Message}
    (hrunning : c.running = some (t, k, rest))
    (hphase : Phase c.self entries access (some (t, k, rest')) inbox outbox) :
    Good p entries access { c with running := some (t, k, rest'), inbox, outbox } := by
  refine ⟨h.id, hphase, h.inside, ?_⟩
  rintro k' rest'' hrunning'
  obtain ⟨rfl, rfl, -⟩ : t = .release ∧ k = k' ∧ _ := by simpa using hrunning'
  exact h.releasing _ _ hrunning

theorem resume_call {rest : ProtocolClient.Method (Option SocketAddr)} {op : SocketOp}
    {cont : op.Result → ProtocolClient.Method (Option SocketAddr)} (hrest : rest = .call op cont)
    (p : ProcId) (c : Client) (t : RequestType) (k : KeyId) :
    resume p c t k rest = ({ c with running := some (t, k, rest) }, []) := by
  subst hrest
  rfl

/-- A response that settles a request is no `Wait`. -/
theorem Final.not_wait {t : RequestType} {k : KeyId} {response : RegistryResponse}
    (h : Final t k response) (k' : KeyId) : response ≠ .wait k' := by
  cases h with
  | refused | done => simp
  | granted _ h => cases h <;> simp

/-- **A client keeps its invariant** by whatever it does, and its call returns when its request
is settled. -/
theorem Good.proceed (h : Good p entries access c) :
    Good p entries access (proceed p c).1 ∧ ((proceed p c).2 = [] ∨ ∃ t k response,
      Final t k response ∧ (proceed p c).2 = [.returned p t k (outcome t k response)]) := by
  have hphase := h.phase
  obtain ⟨self, running, inbox, outbox, inside⟩ := c
  dsimp only at hphase
  cases hphase with
  | idle he => exact ⟨h, Or.inl rfl⟩
  | starting t k he =>
      obtain ⟨rest, hcall, hrest⟩ := self.syncCall_writes t k
      obtain ⟨rest', hpeek, -⟩ := self.confirm_peeks t k
      simp only [Session.proceed, hcall, perform, hrest, resume_call hpeek]
      exact ⟨h.advance rfl (.requested t k he), Or.inl trivial⟩
  -- nothing has come yet: the client goes on peeking
  | requested t k he =>
      obtain ⟨rest, hcall, -⟩ := self.confirm_peeks t k
      simp only [Session.proceed, hcall, perform]
      rw [← hcall]
      exact ⟨h, Or.inl rfl⟩
  | answered t k response rest hrest he hfinal ha =>
      obtain ⟨cont, hsettle, hcont⟩ := ProtocolClient.settle_receives t k
      rcases hrest with rfl | rfl
      · obtain ⟨rest, hcall, hrest⟩ := self.confirm_peeks t k
        simp only [Session.proceed, hcall, perform, List.cons_ne_nil, if_false, hrest,
          resume_call hsettle]
        exact ⟨h.advance rfl (.answered t k response _ (Or.inr rfl) he hfinal ha), Or.inl trivial⟩
      -- the response settles the request
      · simp only [Session.proceed, hsettle, perform, said, hcont response hfinal.not_wait]
        exact ⟨h.finish he hfinal ha rfl rfl, Or.inr ⟨t, k, response, hfinal, rfl⟩⟩
  | waited m k rest inbox hrest hpending =>
      obtain ⟨cont, hsettle, hcont⟩ := ProtocolClient.settle_waits m k
      rcases hrest with rfl | rfl
      · obtain ⟨rest, hcall, hrest⟩ := self.confirm_peeks (requestOf m) k
        simp only [Session.proceed, hcall, perform, List.cons_ne_nil, if_false, hrest,
          resume_call hsettle]
        exact ⟨h.advance rfl (.waited m k _ inbox (Or.inr rfl) hpending), Or.inl trivial⟩
      -- the response is `Wait`, and the client waits for the grant
      · obtain ⟨cont, hgrant⟩ := ProtocolClient.awaitGrant_calls m k
        simp only [Session.proceed, hsettle, perform, said, hcont k, resume_call hgrant]
        exact ⟨h.advance rfl (.waiting m k inbox hpending), Or.inl trivial⟩
  | waiting m k inbox hpending =>
      cases hpending with
      | queued he =>
          obtain ⟨cont, hgrant⟩ := ProtocolClient.awaitGrant_calls m k
          simp only [Session.proceed, hgrant, perform]
          rw [← hgrant]
          exact ⟨h, Or.inl trivial⟩
      | granted response he hgrants ha =>
          obtain ⟨cont, hgrant, hcont⟩ := ProtocolClient.awaitGrant_receives hgrants
          have hfinal : Final (requestOf m) k response := .granted response hgrants
          simp only [Session.proceed, hgrant, perform, said, hcont]
          exact ⟨h.finish he hfinal (fun _ => ha) rfl rfl,
            Or.inr ⟨requestOf m, k, response, hfinal, rfl⟩⟩

/-! ## The registry moves -/

/-- Another client's request on the key `k` has granted requests of `p`, and `p` has been told. -/
structure Observes (k : KeyId) (entries entries' : KeyId → List RequestType)
    (access access' : KeyId → Option RequestType) (responses : List RegistryResponse) : Prop where
  off : ∀ k', k' ≠ k → entries' k' = entries k' ∧ access' k' = access k'
  /-- What was queued is granted, with a response for each, or goes on waiting. -/
  told : ∃ granted, entries k = granted ++ entries' k ∧
    List.Forall₂ (Grants k) granted responses ∧ ∀ a, granted = [a] → access' k = some a
  keeps : ∀ a, access k = some a → access' k = some a

namespace Observes

variable {k : KeyId} {responses : List RegistryResponse}

theorem lasts (h : Observes k entries entries' access access' responses) {k' : KeyId}
    {a : RequestType} (ha : access k' = some a) : access' k' = some a := by
  by_cases heq : k' = k
  · subst heq
    exact h.keeps a ha
  · rw [(h.off k' heq).2, ha]

/-- Who waits for nothing is told nothing. -/
theorem nothing (h : Observes k entries entries' access access' responses)
    (he : ∀ k', entries k' = []) : responses = [] ∧ ∀ k', entries' k' = [] := by
  obtain ⟨granted, hentries, hsaid, -⟩ := h.told
  rw [he k] at hentries
  obtain ⟨rfl, hrest⟩ := List.append_eq_nil_iff.1 hentries.symm
  refine ⟨List.forall₂_nil_left_iff.1 hsaid, fun k' => ?_⟩
  by_cases heq : k' = k
  · rw [heq, hrest]
  · rw [(h.off k' heq).1, he k']

theorem pending (h : Observes k entries entries' access access' responses) {m : Mode}
    {k' : KeyId} {inbox : List Message} (hpending : Pending entries access m k' inbox) :
    Pending entries' access' m k' (inbox ++ responses.map said) := by
  cases hpending with
  | granted response he hgrants ha =>
      obtain ⟨rfl, he'⟩ := h.nothing he
      exact .granted response he' hgrants (h.lasts ha)
  | queued he =>
      obtain ⟨granted, hentries, hsaid, haccess⟩ := h.told
      by_cases heq : k = k'
      · subst heq
        rw [he k, if_pos rfl] at hentries
        have hoff : ∀ k', k' ≠ k → entries' k' = [] := by
          intro k' hk'
          rw [(h.off k' hk').1, he k', if_neg hk']
        rcases List.singleton_eq_append_iff.1 hentries with ⟨rfl, hrest⟩ | ⟨rfl, hrest⟩
        · -- it goes on waiting
          obtain rfl := List.forall₂_nil_left_iff.1 hsaid
          refine .queued fun k' => ?_
          by_cases hk' : k' = k
          · rw [hk', hrest, if_pos rfl]
          · rw [hoff k' hk', if_neg hk']
        · -- it is granted now
          obtain ⟨response, rest, hgrants, hnil, rfl⟩ := List.forall₂_cons_left_iff.1 hsaid
          obtain rfl := List.forall₂_nil_left_iff.1 hnil
          refine .granted response (fun k' => ?_) hgrants (haccess _ rfl)
          by_cases hk' : k' = k
          · rw [hk', hrest]
          · exact hoff k' hk'
      · rw [he k, if_neg heq] at hentries
        obtain ⟨rfl, hrest⟩ := List.append_eq_nil_iff.1 hentries.symm
        obtain rfl := List.forall₂_nil_left_iff.1 hsaid
        refine .queued fun k'' => ?_
        by_cases hk'' : k'' = k
        · rw [hk'', hrest, if_neg heq]
        · rw [(h.off k'' hk'').1, he k'']

end Observes

/-- **Another client's request** leaves the invariant of a client as it is. -/
theorem Good.observe (h : Good p entries access c) {k : KeyId} {responses : List RegistryResponse}
    (hobserves : Observes k entries entries' access access' responses) :
    Good p entries' access' { c with inbox := c.inbox ++ responses.map said } := by
  refine ⟨h.id, ?_, fun k' a hk' => hobserves.lasts (h.inside k' a hk'), h.releasing⟩
  have hphase := h.phase
  obtain ⟨self, running, inbox, outbox, inside⟩ := c
  dsimp only at hphase ⊢
  cases hphase with
  | idle he =>
      obtain ⟨rfl, he'⟩ := hobserves.nothing he
      exact .idle he'
  | starting t k he =>
      obtain ⟨rfl, he'⟩ := hobserves.nothing he
      exact .starting t k he'
  | requested t k he =>
      obtain ⟨rfl, he'⟩ := hobserves.nothing he
      exact .requested t k he'
  | answered t k response rest hrest he hfinal ha =>
      obtain ⟨rfl, he'⟩ := hobserves.nothing he
      exact .answered t k response rest hrest he' hfinal fun hgrants => hobserves.lasts (ha hgrants)
  | waited m k rest inbox hrest hpending =>
      exact .waited m k rest _ hrest (hobserves.pending hpending)
  | waiting m k inbox hpending => exact .waiting m k _ (hobserves.pending hpending)

/-- The client whose message the registry reads has asked for something and gets an answer. -/
theorem Good.reads (h : Good p entries access c) {message : Message} {outbox : List Message}
    (houtbox : c.outbox = message :: outbox) :
    ∃ t k, message = c.self.request t k ∧ outbox = [] ∧ c.inbox = [] ∧
      c.running = some (t, k, c.self.confirm t k) ∧ ∀ k, entries k = [] := by
  have hphase := h.phase
  obtain ⟨self, running, inbox, outbox', inside⟩ := c
  dsimp only at hphase houtbox ⊢
  subst houtbox
  cases hphase with
  | requested t k he => exact ⟨t, k, rfl, rfl, rfl, rfl, he⟩

/-- The registry has answered a request on the key `k`: it is settled or has to wait. -/
inductive Answers (t : RequestType) (k : KeyId) (entries' : KeyId → List RequestType)
    (access' : KeyId → Option RequestType) : RegistryResponse → Prop where
  | final (response : RegistryResponse) (he : ∀ k', entries' k' = []) (h : Final t k response)
      (ha : Grants k t response → access' k = some t) : Answers t k entries' access' response
  | wait (m : Mode) (ht : t = requestOf m)
      (he : ∀ k', entries' k' = if k' = k then [requestOf m] else []) :
      Answers t k entries' access' (.wait k)

/-- **Its own request**: the answer is on the way. -/
theorem Good.answer (h : Good p entries access c) {t : RequestType} {k : KeyId}
    (hrunning : c.running = some (t, k, c.self.confirm t k)) {response : RegistryResponse}
    (hkeeps : ∀ k' a, (k' ≠ k ∨ t ≠ .release) → access k' = some a → access' k' = some a)
    (hanswers : Answers t k entries' access' response) :
    Good p entries' access' { c with inbox := [said response], outbox := [] } := by
  refine ⟨h.id, ?_, ?_, h.releasing⟩
  · dsimp only
    rw [hrunning]
    cases hanswers with
    | final _ he hfinal ha => exact .answered t k response _ (Or.inl rfl) he hfinal ha
    | wait m ht he =>
        subst ht
        exact .waited m k _ [] (Or.inl rfl) (.queued he)
  · intro k' a hk'
    dsimp only at hk'
    refine hkeeps k' a ?_ (h.inside k' a hk')
    by_contra hno
    push Not at hno
    obtain ⟨rfl, rfl⟩ := hno
    rw [h.releasing _ _ hrunning] at hk'
    cases hk'

end Session

end Soros
