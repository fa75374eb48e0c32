import Soros.RegistryServer.Tokens
import Soros.Session.Exclusion

set_option autoImplicit false

/-! # What a step of a session does to each client

`Turn` says it once for all steps: the client makes the next socket operation of its call
(`Proceeds`), gets an answer, hears of a grant, or is left alone. What holds of a client all
along a session is proved from it, one case for each. -/

namespace Soros

open RwLock
open AccessManager (accessOf accessOf_ofLock)
open ProtocolClient (request settle confirm awaitGrant outcome)
open RegistryServer (spoken)

namespace Session

/-! ## What a client does next -/

/-- The next socket operation of the client does not block. -/
def ready (c : Client) : Bool :=
  match c.running with
  | some (_, _, .call op _) => (perform c op).isSome
  | _ => false

/-- **What the next socket operation of a client does**, and whether there is one that does not
block. -/
inductive Proceeds (p : ProcId) (entries : KeyId → List RequestType)
    (access : KeyId → Option RequestType) (c : Client) : Bool → Client × List Event → Prop where
  | idle (hrunning : c.running = none) (hinbox : c.inbox = []) (houtbox : c.outbox = []) :
      Proceeds p entries access c false (c, [])
  /-- The registry has not read the request. -/
  | unread (t : RequestType) (k : KeyId) (hrunning : c.running = some (t, k, c.self.confirm t k))
      (hinbox : c.inbox = []) (houtbox : c.outbox = [c.self.request t k]) :
      Proceeds p entries access c false (c, [])
  /-- The registry has queued the request. -/
  | blocked (m : Mode) (k : KeyId)
      (hrunning : c.running = some (requestOf m, k, awaitGrant m k)) (hinbox : c.inbox = [])
      (houtbox : c.outbox = []) (he : entries k = [requestOf m]) :
      Proceeds p entries access c false (c, [])
  | writes (t : RequestType) (k : KeyId) (hrunning : c.running = some (t, k, c.self.syncCall t k))
      (hinbox : c.inbox = []) (houtbox : c.outbox = []) :
      Proceeds p entries access c true ({ c with
        running := some (t, k, c.self.confirm t k), outbox := [c.self.request t k] }, [])
  | confirms (t : RequestType) (k : KeyId) (hrunning : c.running = some (t, k, c.self.confirm t k))
      (hinbox : c.inbox ≠ []) (houtbox : c.outbox = []) :
      Proceeds p entries access c true ({ c with running := some (t, k, settle t k) }, [])
  /-- The client is told to wait. -/
  | told (m : Mode) (k : KeyId) (inbox : List Message)
      (hrunning : c.running = some (requestOf m, k, settle (requestOf m) k))
      (hinbox : c.inbox = said (.wait k) :: inbox) (houtbox : c.outbox = [])
      (hgrant : ∀ k', said (.wait k') ∉ inbox) :
      Proceeds p entries access c true
        ({ c with running := some (requestOf m, k, awaitGrant m k), inbox }, [])
  /-- The client is told the outcome of its call. -/
  | returns (t : RequestType) (k : KeyId) (response : RegistryResponse)
      (cont : SocketOp.receive.Result → ProtocolClient.Method (Option SocketAddr))
      (hrunning : c.running = some (t, k, .call .receive cont)) (hinbox : c.inbox = [said response])
      (houtbox : c.outbox = []) (hfinal : Final t k response)
      (ha : Grants k t response → access k = some t) :
      Proceeds p entries access c true ({ c with
        running := none, inbox := [], inside := learn c.inside t k (outcome t k response) },
        [.returned p t k (outcome t k response)])

variable {p : ProcId} {entries : KeyId → List RequestType} {access : KeyId → Option RequestType}
  {c : Client}

theorem Pending.not_wait {m : Mode} {k : KeyId} {inbox : List Message}
    (h : Pending entries access m k inbox) (k' : KeyId) : said (.wait k') ∉ inbox := by
  cases h with
  | queued => exact List.not_mem_nil
  | granted response he hgrants ha =>
      intro hmem
      have hwait : response = .wait k' := by simpa [said] using (List.mem_singleton.1 hmem).symm
      exact (Final.granted response hgrants : Final (requestOf m) k response).not_wait k' hwait

theorem Good.proceeds (h : Good p entries access c) :
    Proceeds p entries access c (ready c) (Session.proceed p c) := by
  have hphase := h.phase
  obtain ⟨self, running, inbox, outbox, inside⟩ := c
  dsimp only at hphase
  cases hphase with
  | idle he => exact .idle rfl rfl rfl
  | starting t k he =>
      obtain ⟨rest, hcall, hrest⟩ := self.syncCall_writes t k
      obtain ⟨rest', hpeek, -⟩ := self.confirm_peeks t k
      simp only [ready, Session.proceed, hcall, perform, hrest, resume_call hpeek]
      exact .writes t k (by rw [hcall]) rfl rfl
  | requested t k he =>
      obtain ⟨rest, hcall, -⟩ := self.confirm_peeks t k
      simp only [ready, Session.proceed, hcall, perform]
      exact .unread t k (by rw [hcall]) rfl rfl
  | answered t k response rest hrest he hfinal ha =>
      obtain ⟨cont, hsettle, hcont⟩ := ProtocolClient.settle_receives t k
      rcases hrest with rfl | rfl
      · obtain ⟨rest, hcall, hrest⟩ := self.confirm_peeks t k
        simp only [ready, Session.proceed, hcall, perform, List.cons_ne_nil, if_false, hrest,
          resume_call hsettle]
        exact .confirms t k (by rw [hcall]) (by simp) rfl
      · simp only [ready, Session.proceed, hsettle, perform, said, hcont response hfinal.not_wait]
        exact .returns t k response cont rfl rfl rfl hfinal ha
  | waited m k rest inbox hrest hpending =>
      obtain ⟨cont, hsettle, hcont⟩ := ProtocolClient.settle_waits m k
      rcases hrest with rfl | rfl
      · obtain ⟨rest, hcall, hrest⟩ := self.confirm_peeks (requestOf m) k
        simp only [ready, Session.proceed, hcall, perform, List.cons_ne_nil, if_false, hrest,
          resume_call hsettle]
        exact .confirms (requestOf m) k (by rw [hcall]) (by simp) rfl
      · obtain ⟨cont, hgrant⟩ := ProtocolClient.awaitGrant_calls m k
        simp only [ready, Session.proceed, hsettle, perform, said, hcont k, resume_call hgrant]
        exact .told m k inbox (by rw [hsettle]) rfl rfl hpending.not_wait
  | waiting m k inbox hpending =>
      cases hpending with
      | queued he =>
          obtain ⟨cont, hgrant⟩ := ProtocolClient.awaitGrant_calls m k
          simp only [ready, Session.proceed, hgrant, perform]
          exact .blocked m k (by rw [hgrant]) rfl rfl (by rw [he k, if_pos rfl])
      | granted response he hgrants ha =>
          obtain ⟨cont, hgrant, hcont⟩ := ProtocolClient.awaitGrant_receives hgrants
          simp only [ready, Session.proceed, hgrant, perform, said, hcont]
          exact .returns (requestOf m) k response cont rfl rfl rfl (.granted response hgrants)
            fun _ => ha

/-! ## What the registry gives -/

variable {r r' : RegistryServer} {k : KeyId} {t : RequestType}
  {result : Except RegistryServerError RegistryResponse} {messages : List AccessGranted}
  {o' : Option KeyState} {written : List (TcpStream × Message)}

/-- Whoever has got access has been granted it, from the queue or at once. -/
theorem Serves.gains (h : Serves r p t k result messages o' r' written) {q : ProcId} {k' : KeyId}
    {a : RequestType} (ha : holds r' q k' = some a) (hother : k' ≠ k ∨ q ≠ p ∨ t ≠ .release) :
    holds r q k' = some a ∨ k' = k ∧ (a ∈ grantsTo q messages ∨
      q = p ∧ Grants k t (spoken result) ∧ a = t) := by
  unfold holds at ha ⊢
  rw [h.keys] at ha
  by_cases hk : k' = k
  · subst hk
    rw [Function.update_self] at ha
    rcases h.reply.gains ha (hother.resolve_left fun hno => hno rfl) with
      hold | hgranted | ⟨hq, hown⟩
    · exact Or.inl hold
    · exact Or.inr ⟨rfl, Or.inl hgranted⟩
    · rcases hown with ⟨response, rfl, hgrants, hat⟩ | ⟨holder, hunknown⟩
      · exact Or.inr ⟨rfl, Or.inr ⟨hq, hgrants, hat⟩⟩
      · exact absurd hunknown (h.known holder)
  · rw [Function.update_of_ne hk] at ha
    exact Or.inl ha

theorem grants_told {ts : List RequestType} {responses : List RegistryResponse}
    (h : List.Forall₂ (Grants k) ts responses) (ht : t ∈ ts) :
    ∃ response ∈ responses, Grants k t response := by
  induction h with
  | nil => cases ht
  | cons hgrants hrest ih =>
      rcases List.mem_cons.1 ht with rfl | ht
      · exact ⟨_, List.mem_cons_self, hgrants⟩
      · obtain ⟨response, hmem, hgrant⟩ := ih ht
        exact ⟨response, List.mem_cons_of_mem _ hmem, hgrant⟩

/-- A stranger has access to nothing. -/
theorem Regular.holds_stranger (h : Regular r) (hp : ¬ IsToken r p) (k : KeyId) :
    holds r p k = none := by
  unfold holds
  cases hks : r.accessManager.keyStates k with
  | none => rfl
  | some ks =>
      obtain ⟨l, creator, rfl⟩ := h.valid.fair k ks hks
      rw [accessOf_ofLock]
      by_contra hne
      refine hp (h.named k _ p hks (Or.inr (Or.inl ?_)))
      rw [KeyState.holds_ofLock]
      exact fun hmode => hne (by rw [hmode]; rfl)

/-- A client that releases a key has no access to it when the registry has read that. -/
theorem Regular.released (h : Regular r) (hp : IsToken r p) (hbackup : p ≠ r.backupToken)
    (iter : SetIter ProcId) (he : waits r p k = []) :
    holds (RegistryServer.step Serde.direct r (.readable (Env.calm iter) p
      (.data (.registry (.request p .release k))))).1 p k = none := by
  obtain ⟨-, hmanager⟩ := (RegistryServer.step_readable Serde.direct (Env.calm iter) r p
    (.data (.registry (.request p .release k)))).served
    (by rw [(h.connected p hp).1]; exact Option.some_ne_none p) hbackup
  have hkeys := RegistryServer.keyStates_drained hmanager
  obtain ⟨out, messages, o', heffect, hrun⟩ := RegistryServer.callOf_effect h.valid
    (Env.calm iter).iter p .release k
  rw [RegistryServer.lockEffect_request Serde.direct (Env.calm iter)
    (show RegistryServer.requestIn Serde.direct _ = some (p, .release, k) from rfl), hrun] at hkeys
  unfold holds
  rw [hkeys]
  show accessOf (Function.update r.accessManager.keyStates k o' k) p = none
  rw [Function.update_self]
  exact RegistryServer.release_access heffect he

/-! ## What a step does to each client -/

/-- The step takes the call of `p` on: its next socket operation does not block, or the registry
reads its request. -/
def advances (p : ProcId) (s : Session) : Input → Bool
  | .proceed q => q == p && (s.clients p).any ready
  | .serve q _ =>
      q == p && p != s.registry.backupToken && (s.clients p).any fun c => !c.outbox.isEmpty
  | _ => false

/-- The step is the beginning of a call of `p`. -/
def starts (p : ProcId) (s : Session) : Input → Bool
  | .call q _ _ => q == p && (s.clients p).any fun c => c.running.isNone
  | _ => false

/-- **What the step `i` from `s` to `s'` does to the client `q`.** -/
inductive Turn (s s' : Session) (i : Input) (q : ProcId) : Option Client → Option Client → Prop where
  | stays (o : Option Client) (hholds : holds s'.registry q = holds s.registry q)
      (hadvances : advances q s i = false) (hstarts : starts q s i = false) : Turn s s' i q o o
  | connects (c : Client) (hholds : ∀ k, holds s'.registry q k = none)
      (hidle : c.running = none) (hinside : ∀ k, c.inside k = none)
      (hadvances : advances q s i = false) (hstarts : starts q s i = false) :
      Turn s s' i q none (some c)
  /-- There is no client, or the token has become that of the primary registry. -/
  | primary (o : Option Client) (hprimary : o = none ∨ s.registry.AwaitsPrimary)
      (hadvances : advances q s i = false) (hstarts : starts q s i = false) : Turn s s' i q o none
  | begins (c : Client) (t : RequestType) (k : KeyId) (hi : i = .call q t k)
      (hholds : holds s'.registry q = holds s.registry q) (hidle : c.running = none)
      (hadvances : advances q s i = false) (hstarts : starts q s i = true) :
      Turn s s' i q (some c) (some (begin c t k))
  | proceeds (c : Client) (b : Bool) (r : Client × List Event)
      (hproceeds : Proceeds q (waits s.registry q) (holds s.registry q) c b r)
      (hholds : holds s'.registry q = holds s.registry q)
      (hadvances : advances q s i = b) (hstarts : starts q s i = false) :
      Turn s s' i q (some c) (some r.1)
  | answered (c : Client) (t : RequestType) (k : KeyId) (response : RegistryResponse)
      (hrunning : c.running = some (t, k, c.self.confirm t k)) (hinbox : c.inbox = [])
      (houtbox : c.outbox = [c.self.request t k])
      (hgains : ∀ k' a, holds s'.registry q k' = some a →
        holds s.registry q k' = some a ∧ (k' = k → t ≠ .release) ∨
        k' = k ∧ Grants k t response ∧ a = t)
      (hadvances : advances q s i = true) (hstarts : starts q s i = false) :
      Turn s s' i q (some c) (some { c with inbox := [said response], outbox := [] })
  | observes (c : Client) (k : KeyId) (responses : List RegistryResponse)
      (hobserves : Observes k (waits s.registry q) (waits s'.registry q) (holds s.registry q)
        (holds s'.registry q) responses)
      (hgains : ∀ k' a, holds s'.registry q k' = some a → holds s.registry q k' = some a ∨
        k' = k ∧ ∃ response ∈ responses, Grants k a response)
      (hadvances : advances q s i = false) (hstarts : starts q s i = false) :
      Turn s s' i q (some c) (some { c with inbox := c.inbox ++ responses.map said })

/-- The registry reads the message of `p`. -/
theorem step_serve {s : Session} {p : ProcId} {c : Client} (hc : s.clients p = some c)
    {message : Message} {outbox : List Message} (houtbox : c.outbox = message :: outbox)
    (hbackup : p ≠ s.registry.backupToken) (iter : SetIter ProcId) :
    s.step (.serve p iter) =
      let r := (s.setClient p (some { c with outbox })).react
        (.readable (Env.calm iter) p (.data message))
      (r.1, .asked p message :: r.2.map fun w => .sent w.1 w.2) := by
  simp only [Session.step, hc, houtbox, if_neg hbackup]

/-- The registry reads the request of a client: its key changes, and the client has the answer. -/
theorem step_served {s : Session} {p : ProcId} {c : Client} (hc : s.clients p = some c)
    {t : RequestType} {k : KeyId} (houtbox : c.outbox = [.registry (.request p t k)])
    (hinbox : c.inbox = []) (he : ∀ k, waits s.registry p k = [])
    (hbackup : p ≠ s.registry.backupToken) (iter : SetIter ProcId)
    {result : Except RegistryServerError RegistryResponse} {messages : List AccessGranted}
    {o' : Option KeyState} (hserves : Serves s.registry p t k result messages o'
      (RegistryServer.step Serde.direct s.registry
        (.readable (Env.calm iter) p (.data (.registry (.request p t k))))).1
      ((RegistryServer.step Serde.direct s.registry
        (.readable (Env.calm iter) p (.data (.registry (.request p t k))))).2.flatMap
          RegistryServer.Served.written)) :
    (s.step (.serve p iter)).1.registry.accessManager.keyStates
        = Function.update s.registry.accessManager.keyStates k o' ∧
    (s.step (.serve p iter)).1.clients p
        = some { c with inbox := [said (spoken result)], outbox := [] } := by
  -- nothing of the client is queued, so it is told its answer only
  obtain ⟨hno, -⟩ := hserves.answers he
  obtain ⟨responses, hsent, hgrants⟩ := hserves.sent p
  rw [hno] at hgrants
  obtain rfl := List.forall₂_nil_left_iff.1 hgrants
  rw [if_pos rfl, List.map_nil, List.append_nil] at hsent
  rw [step_serve hc houtbox hbackup iter]
  dsimp only [react]
  rw [setClient_registry]
  refine ⟨hserves.keys, ?_⟩
  rw [setClient_clients, Function.update_self, Option.map_some, hsent, hinbox]
  rfl

/-- The registry has nothing to read from `p`. -/
theorem step_serve_idle {s : Session} {p : ProcId} {iter : SetIter ProcId}
    (h : ¬ advances p s (.serve p iter) = true) : s.step (.serve p iter) = (s, []) := by
  dsimp only [Session.step]
  split
  · rename_i c hc
    split
    · rename_i message outbox houtbox
      rw [if_pos]
      by_contra hbackup
      exact h (by simp [advances, hc, houtbox, hbackup])
    · rfl
  · rfl

/-- A client makes one call at a time. -/
theorem step_call_idle {s : Session} {p : ProcId} {t : RequestType} {k : KeyId}
    (h : ¬ starts p s (.call p t k) = true) : s.step (.call p t k) = (s, []) := by
  dsimp only [Session.step]
  split
  · rename_i c hc
    rw [if_neg]
    simpa [starts, hc] using h
  · rfl

theorem Invariant.turn_connect {s : Session} (h : Invariant s) (addr : SocketAddr) (q : ProcId) :
    Turn s (s.step (.connect addr)).1 (.connect addr) q (s.clients q)
      ((s.step (.connect addr)).1.clients q) := by
  obtain ⟨s', hs'⟩ : ∃ s', s' = (s.step (.connect addr)).1 := ⟨_, rfl⟩
  rw [← hs']
  dsimp only [Session.step, react] at hs'
  have hstep := step_connection s.registry .ascending s.registry.nextToken addr
  generalize RegistryServer.step Serde.direct s.registry
    (.connection (Env.calm .ascending) s.registry.nextToken addr) = r' at hstep hs'
  have hholds : holds s'.registry q = holds s.registry q := by
    rw [hs', setClient_registry]
    unfold holds
    split at hstep <;> rw [hstep.1]
  have hclient := congrArg (fun s => s.clients q) hs'
  dsimp only [setClient_clients] at hclient
  rw [hclient]
  by_cases hq : q = s.registry.nextToken
  · rw [hq, Function.update_self, ← hq]
    split at hstep
    · rename_i hfirst
      rw [hstep.2]
      exact .primary _ (Or.inr (by simpa [RegistryServer.AwaitsPrimary] using hfirst)) rfl rfl
    · rename_i hfirst
      have htoken : q = s.registry.idCounter + 1 := hq.trans (if_neg hfirst)
      have hstranger : ¬ IsToken s.registry q := fun hno => by
        rw [htoken] at hno
        exact absurd hno.2 (Nat.not_succ_le_self _)
      have hnone : s.clients q = none := by
        cases hc : s.clients q with
        | none => rfl
        | some c => exact absurd (h.tokens q c hc) hstranger
      rw [hstep.2, hnone, ← hq, ← htoken]
      simp only [sentTo, List.filterMap_cons, List.filterMap_nil, if_true]
      refine .connects _ (fun k => ?_) rfl (fun k => rfl) rfl rfl
      rw [hholds]
      exact h.regular.holds_stranger hstranger k
  · have hnothing : sentTo q (r'.2.flatMap RegistryServer.Served.written) = [] := by
      split at hstep
      · rw [hstep.2]
        rfl
      · rw [hstep.2]
        simp [sentTo, Ne.symm hq]
    rw [Function.update_of_ne hq, hnothing]
    cases s.clients q with
    | none => exact .stays _ hholds rfl rfl
    | some c =>
        simp only [Option.map_some, List.append_nil]
        exact .stays _ hholds rfl rfl

theorem Invariant.turn_serve {s : Session} (h : Invariant s) (p : ProcId) (iter : SetIter ProcId)
    (q : ProcId) :
    Turn s (s.step (.serve p iter)).1 (.serve p iter) q (s.clients q)
      ((s.step (.serve p iter)).1.clients q) := by
  -- the registry has something to read from `p`, or nothing happens
  by_cases hreads : advances p s (.serve p iter) = true
  · simp only [advances, beq_self_eq_true, Bool.true_and, Bool.and_eq_true, bne_iff_ne,
      Option.any_eq_true, Bool.not_eq_true', List.isEmpty_eq_false_iff] at hreads
    obtain ⟨hbackup, c, hc, houtbox⟩ := hreads
    obtain ⟨message, outbox, houtbox⟩ := List.exists_cons_of_ne_nil houtbox
    obtain ⟨t, k, result, messages, o', rfl, rfl, hinbox, hrunning, he, hserves⟩ :=
      h.reads hc houtbox hbackup iter
    have hrequest : c.outbox = [c.self.request t k] := by
      rw [houtbox, ProtocolClient.request, (h.clients p c hc).id]
    have hreleased : t = .release → holds (RegistryServer.step Serde.direct s.registry
        (.readable (Env.calm iter) p (.data (.registry (.request p t k))))).1 p k = none := by
      rintro rfl
      exact h.regular.released (h.tokens p c hc) hbackup iter (he k)
    have hregistry : (s.step (.serve p iter)).1.registry
        = (RegistryServer.step Serde.direct s.registry
          (.readable (Env.calm iter) p (.data (.registry (.request p t k))))).1 := by
      rw [step_serve hc houtbox hbackup iter]
      rfl
    by_cases hq : q = p
    · subst hq
      rw [hc, (step_served hc houtbox hinbox he hbackup iter hserves).2]
      refine .answered c t k (spoken result) hrunning hinbox hrequest (fun k' a ha => ?_)
        (by simp [advances, hbackup, hc, houtbox]) rfl
      rw [hregistry] at ha
      by_cases hrelease : k' = k ∧ t = .release
      · obtain ⟨rfl, rfl⟩ := hrelease
        rw [hreleased rfl] at ha
        cases ha
      · have hother : k' = k → t ≠ .release := fun hk ht => hrelease ⟨hk, ht⟩
        rcases hserves.gains ha (by tauto) with hold | ⟨hk, hgranted | ⟨-, hown, hat⟩⟩
        · exact Or.inl ⟨hold, hother⟩
        · rw [(hserves.answers he).1] at hgranted
          cases hgranted
        · exact Or.inr ⟨hk, hown, hat⟩
    · have hadvances : advances q s (.serve p iter) = false := by
        simp [advances, Ne.symm hq]
      obtain ⟨responses, hsent, hgrants⟩ := hserves.sent q
      rw [if_neg hq, List.nil_append] at hsent
      have hclient : (s.step (.serve p iter)).1.clients q
          = (s.clients q).map fun d => { d with inbox := d.inbox ++ responses.map said } := by
        rw [step_serve hc houtbox hbackup iter]
        dsimp only [react]
        rw [setClient_registry, hsent, setClient_clients, Function.update_of_ne hq]
      rw [hclient]
      cases hd : s.clients q with
      | none => exact .primary _ (Or.inl rfl) hadvances rfl
      | some d =>
          refine .observes d k responses ?_ (fun k' a ha => ?_) hadvances rfl
          · rw [hregistry]
            exact hserves.observes hq hgrants
          · rw [hregistry] at ha
            rcases hserves.gains ha (Or.inr (Or.inl hq)) with hold | ⟨hk, hgranted | ⟨hno, -⟩⟩
            · exact Or.inl hold
            · obtain ⟨response, hmem, hgrant⟩ := grants_told hgrants hgranted
              exact Or.inr ⟨hk, response, hmem, hgrant⟩
            · exact absurd hno hq
  · rw [step_serve_idle hreads]
    refine .stays _ rfl ?_ rfl
    by_cases hq : p = q
    · rw [← hq]
      exact Bool.eq_false_of_not_eq_true hreads
    · simp [advances, hq]

theorem turn_call {s : Session} (p : ProcId) (t : RequestType) (k : KeyId) (q : ProcId) :
    Turn s (s.step (.call p t k)).1 (.call p t k) q (s.clients q)
      ((s.step (.call p t k)).1.clients q) := by
  by_cases hbegins : starts p s (.call p t k) = true
  · simp only [starts, beq_self_eq_true, Bool.true_and, Option.any_eq_true,
      Option.isNone_iff_eq_none] at hbegins
    obtain ⟨c, hc, hidle⟩ := hbegins
    dsimp only [Session.step]
    rw [hc]
    dsimp only
    rw [if_pos (by rw [hidle]; rfl)]
    by_cases hq : q = p
    · subst hq
      rw [setClient_clients, Function.update_self, hc]
      exact .begins c t k rfl rfl hidle rfl (by simp [starts, hc, hidle])
    · rw [setClient_clients, Function.update_of_ne hq]
      exact .stays _ rfl rfl (by simp [starts, Ne.symm hq])
  · rw [step_call_idle hbegins]
    refine .stays _ rfl rfl ?_
    by_cases hq : p = q
    · rw [← hq]
      exact Bool.eq_false_of_not_eq_true hbegins
    · simp [starts, hq]

theorem Invariant.turn_proceed {s : Session} (h : Invariant s) (p q : ProcId) :
    Turn s (s.step (.proceed p)).1 (.proceed p) q (s.clients q)
      ((s.step (.proceed p)).1.clients q) := by
  dsimp only [Session.step]
  split
  · rename_i c hc
    by_cases hq : q = p
    · subst hq
      rw [setClient_clients, Function.update_self, hc]
      exact .proceeds c (ready c) _ (h.clients q c hc).proceeds rfl (by simp [advances, hc]) rfl
    · rw [setClient_clients, Function.update_of_ne hq]
      exact .stays _ rfl (by simp [advances, Ne.symm hq]) rfl
  · rename_i hnone
    refine .stays _ rfl ?_ rfl
    by_cases hq : p = q
    · subst hq
      simp [advances, hnone]
    · simp [advances, hq]

/-- **Each step gives every client a turn.** -/
theorem Invariant.turn {s : Session} (h : Invariant s) (i : Input) (q : ProcId) :
    Turn s (s.step i).1 i q (s.clients q) ((s.step i).1.clients q) := by
  cases i with
  | connect addr => exact h.turn_connect addr q
  | call p t k => exact turn_call p t k q
  | proceed p => exact h.turn_proceed p q
  | serve p iter => exact h.turn_serve p iter q

end Session

end Soros
