import Soros.Session.Phases

set_option autoImplicit false

/-! # Mutual exclusion as the clients see it

What a client believes of its access lags behind the registry by the messages on the way.
`Invariant` ties the two together in every state of every session: each client is in a phase
that fits what the registry has of it, and is inside a key only while the registry has given
it access. Exclusion among the clients then is exclusion in the lock of the key
(`clients_exclusive`). -/

namespace Soros

open RwLock
open AccessManager (accessOf grantMessage)
open RegistryServer (Reply delivery spoken grantAnswer)

namespace Session

/-! ## The registry -/

/-- The tokens of the clients. -/
def IsToken (r : RegistryServer) (p : ProcId) : Prop := 1 ≤ p ∧ p ≤ r.idCounter

/-- **The invariant of the registry.** It knows the clients and nobody else. -/
structure Regular (r : RegistryServer) : Prop where
  valid : r.accessManager.Valid
  empty : r.accessManager.accessGranted.buffer = []
  connected : ∀ p, IsToken r p → r.tokenStreamMap p = some p ∧ (r.tokenAddrMap p).isSome
  named : ∀ k ks p, r.accessManager.keyStates k = some ks → ks.Names p → IsToken r p

/-- The requests that `p` has waiting. -/
def waits (r : RegistryServer) (p : ProcId) (k : KeyId) : List RequestType :=
  entriesOf (r.accessManager.keyStates k) p

/-- The accesses that `p` has. -/
def holds (r : RegistryServer) (p : ProcId) (k : KeyId) : Option RequestType :=
  accessOf (r.accessManager.keyStates k) p

theorem new_regular (secondaryServer : Option (SocketAddr × TcpStream)) :
    Regular (RegistryServer.new secondaryServer) where
  valid := AccessManager.valid_new
  empty := rfl
  connected := by
    rintro p ⟨hlow, hhigh⟩
    have hno : 1 ≤ 0 := Nat.le_trans hlow hhigh
    cases hno
  named := by intro k ks p hks; cases hks

/-- A stranger waits for nothing. -/
theorem Regular.waits_stranger {r : RegistryServer} (h : Regular r) {p : ProcId}
    (hp : ¬ IsToken r p) (k : KeyId) : waits r p k = [] := by
  unfold waits
  cases hks : r.accessManager.keyStates k with
  | none => rfl
  | some ks =>
      refine List.filterMap_eq_nil_iff.2 fun e he => if_neg ?_
      rintro rfl
      exact hp (h.named k ks e.1 hks (Or.inr (Or.inr (List.mem_map_of_mem he))))

/-- The step of the registry on a new connection, when nothing fails. -/
theorem step_connection (r : RegistryServer) (iter : SetIter ProcId) (stream : TcpStream)
    (addr : SocketAddr) :
    let r' := RegistryServer.step Serde.direct r (.connection (Env.calm iter) stream addr)
    if r.backupAddr.isNone && r.firstConnection then
      r'.1 = { r with
        firstConnection := false
        tokenStreamMap := Function.update r.tokenStreamMap r.primaryToken (some stream) } ∧
      r'.2.flatMap RegistryServer.Served.written = []
    else
      r'.1 = { r with
        idCounter := r.idCounter + 1
        tokenStreamMap := Function.update r.tokenStreamMap (r.idCounter + 1) (some stream)
        tokenAddrMap := Function.update r.tokenAddrMap (r.idCounter + 1) (some addr) } ∧
      r'.2.flatMap RegistryServer.Served.written
        = [(stream, .registry (.connection (r.idCounter + 1)))] := by
  simp only [RegistryServer.step, RegistryServer.Input.handle, List.flatMap_cons, List.flatMap_nil,
    List.append_nil]
  unfold RegistryServer.handleConnection
  rw [Exec.bind_ok (Exec.get_run _)]
  dsimp only [RegistryServer.enter]
  split
  · exact ⟨rfl, rfl⟩
  · rw [Exec.bind_ok (RegistryServer.update_run _ _),
      show RegistryServer.register (Env.calm iter) = pure () from rfl,
      Exec.bind_ok (Exec.pure_run () _), Exec.bind_run, RegistryServer.writeAll_run]
    dsimp only [Env.calm]
    rw [Exec.bind_ok (RegistryServer.update_run _ _), RegistryServer.forwardRequest_run]
    split <;> exact ⟨rfl, rfl⟩

/-- A connection is accepted. -/
theorem Regular.accept {r : RegistryServer} (h : Regular r) (r' : RegistryServer)
    (addr : SocketAddr)
    (hr' : r' = if r.backupAddr.isNone && r.firstConnection then { r with
        firstConnection := false
        tokenStreamMap := Function.update r.tokenStreamMap r.primaryToken (some r.nextToken) }
      else { r with
        idCounter := r.idCounter + 1
        tokenStreamMap := Function.update r.tokenStreamMap (r.idCounter + 1) (some r.nextToken)
        tokenAddrMap := Function.update r.tokenAddrMap (r.idCounter + 1) (some addr) }) :
    Regular r' ∧ r'.accessManager = r.accessManager ∧ r.idCounter ≤ r'.idCounter := by
  subst hr'
  split
  -- the primary registry: its token may be that of a client, which then has the same socket
  · rename_i hfirst
    refine ⟨⟨h.valid, h.empty, fun p hp => ?_, h.named⟩, rfl, Nat.le_refl _⟩
    obtain ⟨hstream, haddr⟩ := h.connected p hp
    refine ⟨?_, haddr⟩
    dsimp only
    by_cases heq : p = r.primaryToken
    · subst heq
      rw [Function.update_self, RegistryServer.nextToken, if_pos hfirst]
    · rw [Function.update_of_ne heq, hstream]
  · rename_i hfirst
    refine ⟨⟨h.valid, h.empty, fun p hp => ?_, fun k ks p hks hp => ?_⟩, rfl, Nat.le_succ _⟩
    · dsimp only
      -- the new client, or one that is there
      by_cases heq : p = r.idCounter + 1
      · subst heq
        simp [RegistryServer.nextToken, hfirst]
      · have hold := h.connected p ⟨hp.1, Nat.le_of_lt_succ (Nat.lt_of_le_of_ne hp.2 heq)⟩
        rw [Function.update_of_ne heq, Function.update_of_ne heq]
        exact hold
    · obtain ⟨hlow, hhigh⟩ := h.named k ks p hks hp
      exact ⟨hlow, Nat.le_succ_of_le hhigh⟩

/-! ## What is written to the clients -/

/-- Every process is sent the responses to its own requests. -/
theorem sentTo_delivery {r : RegistryServer} {k : KeyId} {messages : List AccessGranted}
    (h : ∀ a ∈ messages, (∃ holder m, a = grantMessage k holder (a.1, m)) ∧
      r.tokenStreamMap a.1 = some a.1 ∧ (grantAnswer r a).isSome) (p : ProcId) :
    ∃ responses, sentTo p (messages.filterMap (delivery Serde.direct r)) = responses.map said ∧
      List.Forall₂ (Grants k) (grantsTo p messages) responses := by
  induction messages with
  | nil => exact ⟨[], rfl, .nil⟩
  | cons a messages ih =>
      obtain ⟨responses, hsent, hgrants⟩ := ih fun a' ha' => h a' (List.mem_cons_of_mem a ha')
      obtain ⟨⟨holder, m, ha⟩, hstream, hsome⟩ := h a List.mem_cons_self
      obtain ⟨response, hresponse⟩ := Option.isSome_iff_exists.1 hsome
      have hdelivery : delivery Serde.direct r a = some (a.1, said response) := by
        simp [delivery, hstream, hresponse]
        rfl
      rw [List.filterMap_cons_some hdelivery]
      -- the access is of `p`, or `p` hears nothing of it
      by_cases hp : a.1 = p
      · refine ⟨response :: responses, ?_, ?_⟩
        · simp [sentTo, hp] at hsent ⊢
          exact hsent
        · have hcons : grantsTo p (a :: messages) = a.2.2.1 :: grantsTo p messages := by
            simp [grantsTo, hp]
          rw [hcons]
          refine .cons ?_ hgrants
          rw [ha] at hresponse ⊢
          cases m with
          | read =>
              obtain ⟨addr, -, rfl⟩ := Option.map_eq_some_iff.1 hresponse
              exact .read addr
          | write =>
              cases hresponse
              exact .write
      · refine ⟨responses, ?_, ?_⟩
        · simp [sentTo, hp] at hsent ⊢
          exact hsent
        · have hcons : grantsTo p (a :: messages) = grantsTo p messages := by
            simp [grantsTo, hp]
          rw [hcons]
          exact hgrants

/-- What the registry makes of the request of a client, when nothing fails. -/
structure Serves (r : RegistryServer) (p : ProcId) (t : RequestType) (k : KeyId)
    (result : Except RegistryServerError RegistryResponse) (messages : List AccessGranted)
    (o' : Option KeyState) (r' : RegistryServer) (written : List (TcpStream × Message)) : Prop where
  reply : Reply r p k t (r.accessManager.keyStates k) result messages o'
  known : ∀ holder, result ≠ .error (.unknownHolder holder)
  regular : Regular r'
  tokens : r'.idCounter = r.idCounter
  keys : r'.accessManager.keyStates = Function.update r.accessManager.keyStates k o'
  /-- The client gets its answer, and everyone the grants made to it. -/
  sent : ∀ q, ∃ responses,
    sentTo q written = (if q = p then [said (spoken result)] else []) ++ responses.map said ∧
    List.Forall₂ (Grants k) (grantsTo q messages) responses

/-- Whoever is let in is connected, and so is the creator of the key. -/
theorem Regular.messages {r : RegistryServer} (h : Regular r) {p : ProcId} {t : RequestType}
    {k : KeyId} {result : Except RegistryServerError RegistryResponse}
    {messages : List AccessGranted} {o' : Option KeyState}
    (hreply : Reply r p k t (r.accessManager.keyStates k) result messages o') :
    ∀ a ∈ messages, (∃ holder m, a = grantMessage k holder (a.1, m)) ∧
      r.tokenStreamMap a.1 = some a.1 ∧ (grantAnswer r a).isSome := by
  intro a ha
  obtain ⟨ks, m, hks, hnames, heq⟩ := hreply.message ha
  refine ⟨⟨ks.creator, m, heq⟩, (h.connected _ (h.named k ks _ hks hnames)).1, ?_⟩
  have hcreator := (h.connected _ (h.named k ks _ hks (Or.inl rfl))).2
  rw [heq]
  cases m with
  | read => simpa [grantAnswer, grantMessage, requestOf] using hcreator
  | write => rfl

/-- A request adds no name to its key but that of the process that makes it. -/
theorem Regular.names {r : RegistryServer} (h : Regular r) {p : ProcId} (hp : IsToken r p)
    {t : RequestType} {k : KeyId} {result : Except RegistryServerError RegistryResponse}
    {messages : List AccessGranted} {o' : Option KeyState}
    (hreply : Reply r p k t (r.accessManager.keyStates k) result messages o') :
    ∀ ks q, o' = some ks → ks.Names q → IsToken r q := by
  intro ks q hks hnames
  rcases hreply.names hks hnames with ⟨ks', hks', hnames'⟩ | rfl
  · exact h.named k ks' q hks' hnames'
  · exact hp

/-- **The registry serves a client**, by what the access manager makes of its request. -/
theorem Regular.serve {r : RegistryServer} (h : Regular r) {p : ProcId} (hp : IsToken r p)
    (hbackup : p ≠ r.backupToken) (iter : SetIter ProcId) (t : RequestType) (k : KeyId) :
    let r' := RegistryServer.step Serde.direct r
      (.readable (Env.calm iter) p (.data (.registry (.request p t k))))
    ∃ out result messages o',
      AccessManager.Effect (RegistryServer.callOf p t k) (r.accessManager.keyStates k) out messages
        o' ∧
      r.answer t k out = .ofExcept result ∧
      Serves r p t k result messages o' r'.1 (r'.2.flatMap RegistryServer.Served.written) := by
  have hreq : RegistryServer.requestIn Serde.direct (.registry (.request p t k)) = some (p, t, k) := rfl
  have hopen : RegistryServer.Open (Env.calm iter) r := fun _ _ _ _ => rfl
  obtain ⟨out, result, messages, o', heffect, hanswer, hreply, hstep⟩ :=
    RegistryServer.step_request Serde.direct h.valid h.empty hbackup (h.connected p hp).1 hreq
      hopen rfl
  have hmessages := h.messages hreply
  have hnamed := h.names hp hreply
  obtain ⟨hserver, hwritten⟩ := hstep fun a ha => (hmessages a ha).2.2
  have hvalid := RegistryServer.step_valid Serde.direct h.valid
    (.readable (Env.calm iter) p (.data (.registry (.request p t k))))
  dsimp only at hserver hwritten ⊢
  generalize RegistryServer.step Serde.direct r
    (.readable (Env.calm iter) p (.data (.registry (.request p t k)))) = r' at *
  have hkeys : r'.1.accessManager.keyStates = Function.update r.accessManager.keyStates k o' := by
    rw [hserver]
    rfl
  refine ⟨out, result, messages, o', heffect, hanswer, hreply, ?_, ⟨hvalid, ?_, ?_, ?_⟩, ?_, hkeys,
    ?_⟩
  -- the holder is named by the key, so its address is known
  · rintro holder rfl
    obtain ⟨haddr, ks, hks, hnames⟩ := hreply.unknownHolder
    have hsome := (h.connected _ (hnamed ks holder hks hnames)).2
    rw [haddr] at hsome
    cases hsome
  · rw [hserver]
    simp [AccessManager.after, AccessManager.sent, h.empty]
  · intro q hq
    rw [hserver] at hq ⊢
    exact h.connected q hq
  · intro k' ks q hks hnames
    have htoken : IsToken r q := by
      rw [hkeys] at hks
      by_cases hk : k' = k
      · subst hk
        rw [Function.update_self] at hks
        exact hnamed ks q hks hnames
      · rw [Function.update_of_ne hk] at hks
        exact h.named k' ks q hks hnames
    rw [hserver]
    exact htoken
  · rw [hserver]
  · intro q
    obtain ⟨responses, hsent, hgrants⟩ := sentTo_delivery hmessages q
    refine ⟨responses, ?_, hgrants⟩
    rw [hwritten, ← hsent]
    by_cases hq : q = p
    · simp [sentTo, hq]
      rfl
    · simp [sentTo, hq, Ne.symm hq]

/-- The standing of a process after a request of another one. -/
theorem Serves.observes {r r' : RegistryServer} {p q : ProcId} {t : RequestType} {k : KeyId}
    {result : Except RegistryServerError RegistryResponse} {messages : List AccessGranted}
    {o' : Option KeyState} {written : List (TcpStream × Message)}
    {responses : List RegistryResponse}
    (h : Serves r p t k result messages o' r' written) (hq : q ≠ p)
    (hgrants : List.Forall₂ (Grants k) (grantsTo q messages) responses) :
    Observes k (waits r q) (waits r' q) (holds r q) (holds r' q) responses where
  off := by
    intro k' hk'
    unfold waits holds
    rw [h.keys, Function.update_of_ne hk']
    exact ⟨rfl, rfl⟩
  told := by
    refine ⟨grantsTo q messages, ?_, hgrants, fun a ha => ?_⟩
    · have hentries := h.reply.entries q
      rw [if_neg (Ne.symm hq), List.append_nil] at hentries
      unfold waits
      rw [h.keys, Function.update_self]
      exact hentries
    · unfold holds
      rw [h.keys, Function.update_self]
      exact h.reply.granted ha
  keeps := by
    intro a ha
    unfold holds at ha ⊢
    rw [h.keys, Function.update_self]
    exact (h.reply.access ha (Or.inl hq)).1

/-- A request takes no access from its own client, unless it is the release of that key. -/
theorem Serves.keeps {r r' : RegistryServer} {p : ProcId} {t : RequestType} {k : KeyId}
    {result : Except RegistryServerError RegistryResponse} {messages : List AccessGranted}
    {o' : Option KeyState} {written : List (TcpStream × Message)}
    (h : Serves r p t k result messages o' r' written) (k' : KeyId) (a : RequestType)
    (hother : k' ≠ k ∨ t ≠ .release) (ha : holds r p k' = some a) : holds r' p k' = some a := by
  unfold holds at ha ⊢
  rw [h.keys]
  by_cases hk : k' = k
  · subst hk
    rw [Function.update_self]
    exact (h.reply.access ha (Or.inr (hother.resolve_left (fun hno => hno rfl)))).1
  · rw [Function.update_of_ne hk]
    exact ha

/-- A request is settled or has to wait. -/
theorem final_or_wait {r : RegistryServer} {p : ProcId} {t : RequestType} {k : KeyId}
    {o o' : Option KeyState} {response : RegistryResponse} {messages : List AccessGranted}
    (h : Reply r p k t o (.ok response) messages o') :
    Final t k response ∨ ∃ m, t = requestOf m ∧ response = .wait k ∧ messages = [] := by
  cases h with
  | create | delete | release => exact Or.inl (.done (by simp))
  | read l c holder addr => exact Or.inl (.granted _ (.read addr))
  | write => exact Or.inl (.granted _ .write)
  | wait l c m => exact Or.inr ⟨m, rfl, rfl, rfl⟩

/-- The standing of a process after its own request. -/
theorem Serves.answers {r r' : RegistryServer} {p : ProcId} {t : RequestType} {k : KeyId}
    {result : Except RegistryServerError RegistryResponse} {messages : List AccessGranted}
    {o' : Option KeyState} {written : List (TcpStream × Message)}
    (h : Serves r p t k result messages o' r' written) (he : ∀ k, waits r p k = []) :
    grantsTo p messages = [] ∧ Answers t k (waits r' p) (holds r' p) (spoken result) := by
  have hentries := h.reply.entries p
  rw [if_pos rfl, show entriesOf (r.accessManager.keyStates k) p = [] from he k,
    List.nil_append] at hentries
  -- the process waits for this key at most
  have hwaits : ∀ k', waits r' p k' = if k' = k then entriesOf o' p else [] := by
    intro k'
    unfold waits
    rw [h.keys]
    split
    · rename_i heq
      rw [heq, Function.update_self]
    · rename_i hne
      rw [Function.update_of_ne hne]
      exact he k'
  -- unless it has to wait, the process is not let in by its own request, and is in no queue
  have hfinal : ∀ response, RegistryServer.queued t result = [] → Final t k response →
      (Grants k t response → accessOf o' p = some t) →
      grantsTo p messages = [] ∧ Answers t k (waits r' p) (holds r' p) response := by
    intro response hqueued hfinal haccess
    rw [hqueued] at hentries
    obtain ⟨hno, hrest⟩ := List.append_eq_nil_iff.1 hentries.symm
    refine ⟨hno, .final response (fun k' => ?_) hfinal fun hgrants => ?_⟩
    · rw [hwaits k', hrest, ite_self]
    · unfold holds
      rw [h.keys, Function.update_self]
      exact haccess hgrants
  cases result with
  | error e => exact hfinal _ rfl (.refused e.text) fun hgrants => by cases hgrants
  | ok response =>
      rcases final_or_wait h.reply with hsettled | ⟨m, rfl, rfl, rfl⟩
      · refine hfinal response ?_ hsettled h.reply.answered
        have hwait := hsettled.not_wait
        cases response with
        | wait k' => exact absurd rfl (hwait k')
        | ack | success | holder | error => rfl
      · refine ⟨rfl, .wait m rfl fun k' => ?_⟩
        have hqueue : entriesOf o' p = [requestOf m] := hentries.symm
        rw [hwaits k', hqueue]

/-! ## Sessions -/

/-- **The invariant of a session.** -/
structure Invariant (s : Session) : Prop where
  regular : Regular s.registry
  tokens : ∀ p c, s.clients p = some c → IsToken s.registry p
  clients : ∀ p c, s.clients p = some c → Good p (waits s.registry p) (holds s.registry p) c

theorem Invariant.setClient {s : Session} (h : Invariant s) {p : ProcId} {c : Client}
    (hp : IsToken s.registry p) (hc : Good p (waits s.registry p) (holds s.registry p) c) :
    Invariant (s.setClient p (some c)) := by
  refine ⟨h.regular, fun q d hd => ?_, fun q d hd => ?_⟩
  · by_cases hq : q = p
    · rw [hq]
      exact hp
    · rw [setClient_clients, Function.update_of_ne hq] at hd
      exact h.tokens q d hd
  · by_cases hq : q = p
    · subst hq
      rw [setClient_clients, Function.update_self] at hd
      cases hd
      exact hc
    · rw [setClient_clients, Function.update_of_ne hq] at hd
      exact h.clients q d hd

theorem Invariant.connect {s : Session} (h : Invariant s) (addr : SocketAddr) :
    Invariant (s.step (.connect addr)).1 := by
  dsimp only [Session.step]
  have hstep := step_connection s.registry .ascending s.registry.nextToken addr
  dsimp only [react]
  generalize RegistryServer.step Serde.direct s.registry
    (.connection (Env.calm .ascending) s.registry.nextToken addr) = r' at hstep ⊢
  obtain ⟨hregular, hmanager, htokens⟩ := h.regular.accept r'.1 addr (by
    split at hstep
    · rename_i hfirst
      rw [if_pos hfirst, hstep.1]
    · rename_i hfirst
      rw [if_neg hfirst, hstep.1])
  have hstanding : ∀ q, waits r'.1 q = waits s.registry q ∧ holds r'.1 q = holds s.registry q := by
    intro q
    unfold waits holds
    rw [hmanager]
    exact ⟨rfl, rfl⟩
  -- the clients that are there hear nothing of it
  have hold : ∀ q d, q ≠ s.registry.nextToken →
      (s.clients q).map (fun c => { c with inbox := c.inbox ++ sentTo q (r'.2.flatMap
        RegistryServer.Served.written) }) = some d →
      IsToken r'.1 q ∧ Good q (waits r'.1 q) (holds r'.1 q) d := by
    intro q d hq hd
    have hnothing : sentTo q (r'.2.flatMap RegistryServer.Served.written) = [] := by
      split at hstep
      · rw [hstep.2]
        rfl
      · rw [hstep.2]
        simp [sentTo, Ne.symm hq]
    obtain ⟨c, hc, rfl⟩ := Option.map_eq_some_iff.1 hd
    rw [hnothing, List.append_nil, (hstanding q).1, (hstanding q).2]
    obtain ⟨hlow, hhigh⟩ := h.tokens q c hc
    exact ⟨⟨hlow, Nat.le_trans hhigh htokens⟩, h.clients q c hc⟩
  -- the new client is idle, and nobody knows its token
  have hnew : ∀ d, greet (sentTo s.registry.nextToken (r'.2.flatMap
        RegistryServer.Served.written)) = some d →
      IsToken r'.1 s.registry.nextToken ∧
      Good s.registry.nextToken (waits r'.1 s.registry.nextToken)
        (holds r'.1 s.registry.nextToken) d := by
    intro d hd
    split at hstep
    · rw [hstep.2] at hd
      cases hd
    · rename_i hfirst
      have htoken : s.registry.nextToken = s.registry.idCounter + 1 := if_neg hfirst
      rw [hstep.2, htoken] at hd
      simp only [sentTo, List.filterMap_cons, List.filterMap_nil, if_true] at hd
      cases hd
      rw [htoken]
      refine ⟨⟨Nat.le_add_left _ _, by rw [hstep.1]⟩, ⟨rfl, .idle fun k => ?_, ?_, ?_⟩⟩
      · rw [(hstanding _).1]
        exact h.regular.waits_stranger (fun hno => absurd hno.2 (Nat.not_succ_le_self _)) k
      · intro k a hk
        cases hk
      · rintro k rest ⟨⟩
  have hclient : ∀ q d, Function.update (fun q => (s.clients q).map fun c =>
        { c with inbox := c.inbox ++ sentTo q (r'.2.flatMap RegistryServer.Served.written) })
        s.registry.nextToken (greet (sentTo s.registry.nextToken (r'.2.flatMap
          RegistryServer.Served.written))) q = some d →
      IsToken r'.1 q ∧ Good q (waits r'.1 q) (holds r'.1 q) d := by
    intro q d hd
    by_cases hq : q = s.registry.nextToken
    · subst hq
      rw [Function.update_self] at hd
      exact hnew d hd
    · rw [Function.update_of_ne hq] at hd
      exact hold q d hq hd
  exact ⟨hregular, fun q d hd => (hclient q d hd).1, fun q d hd => (hclient q d hd).2⟩

/-- **The registry reads the message of a client**: it is a request, the only one on the way,
and the registry serves it. -/
theorem Invariant.reads {s : Session} (h : Invariant s) {p : ProcId} {c : Client}
    (hc : s.clients p = some c) {message : Message} {outbox : List Message}
    (houtbox : c.outbox = message :: outbox) (hbackup : p ≠ s.registry.backupToken)
    (iter : SetIter ProcId) :
    ∃ t k result messages o', message = .registry (.request p t k) ∧ outbox = [] ∧
      c.inbox = [] ∧ c.running = some (t, k, c.self.confirm t k) ∧
      (∀ k, waits s.registry p k = []) ∧
      Serves s.registry p t k result messages o'
        (RegistryServer.step Serde.direct s.registry
          (.readable (Env.calm iter) p (.data (.registry (.request p t k))))).1
        ((RegistryServer.step Serde.direct s.registry
          (.readable (Env.calm iter) p (.data (.registry (.request p t k))))).2.flatMap
            RegistryServer.Served.written) := by
  have hgood := h.clients p c hc
  obtain ⟨t, k, rfl, rfl, hinbox, hrunning, he⟩ := hgood.reads houtbox
  obtain ⟨_, result, messages, o', -, -, hserves⟩ :=
    h.regular.serve (h.tokens p c hc) hbackup iter t k
  refine ⟨t, k, result, messages, o', ?_, rfl, hinbox, hrunning, he, hserves⟩
  rw [ProtocolClient.request, hgood.id]

theorem Invariant.serve {s : Session} (h : Invariant s) (p : ProcId) (iter : SetIter ProcId) :
    Invariant (s.step (.serve p iter)).1 := by
  dsimp only [Session.step]
  cases hc : s.clients p with
  | none => exact h
  | some c =>
      dsimp only
      cases houtbox : c.outbox with
      | nil => exact h
      | cons message outbox =>
          dsimp only
          by_cases hbackup : p = s.registry.backupToken
          · rw [if_pos hbackup]
            exact h
          rw [if_neg hbackup]
          have hgood := h.clients p c hc
          have hp := h.tokens p c hc
          obtain ⟨t, k, result, messages, o', rfl, rfl, hinbox, hrunning, he, hserves⟩ :=
            h.reads hc houtbox hbackup iter
          dsimp only [react]
          rw [setClient_registry]
          generalize RegistryServer.step Serde.direct s.registry
            (.readable (Env.calm iter) p (.data (.registry (.request p t k)))) = r' at hserves ⊢
          -- the client that is answered, and any other one
          have hclient : ∀ q d, ((Function.update s.clients p (some { c with outbox := [] }) q).map
              fun d => { d with inbox := d.inbox ++ sentTo q (r'.2.flatMap
                RegistryServer.Served.written) }) = some d →
              IsToken s.registry q ∧ Good q (waits r'.1 q) (holds r'.1 q) d := by
            intro q d hd
            obtain ⟨responses, hsent, hgrants⟩ := hserves.sent q
            rw [hsent] at hd
            by_cases hq : q = p
            · subst hq
              obtain ⟨hnone, hanswers⟩ := hserves.answers he
              rw [hnone] at hgrants
              obtain rfl := List.forall₂_nil_left_iff.1 hgrants
              rw [Function.update_self, if_pos rfl] at hd
              cases hd
              have hnext := hgood.answer hrunning hserves.keeps hanswers
              rw [hinbox]
              exact ⟨hp, hnext⟩
            · rw [Function.update_of_ne hq, if_neg hq] at hd
              obtain ⟨d', hd', rfl⟩ := Option.map_eq_some_iff.1 hd
              exact ⟨h.tokens q d' hd', (h.clients q d' hd').observe (hserves.observes hq hgrants)⟩
          refine ⟨hserves.regular, fun q d hd => ?_, fun q d hd => (hclient q d hd).2⟩
          have htoken := (hclient q d hd).1
          unfold IsToken at htoken ⊢
          rw [hserves.tokens]
          exact htoken

theorem Invariant.step {s : Session} (h : Invariant s) (i : Input) : Invariant (s.step i).1 := by
  cases i with
  | connect addr => exact h.connect addr
  | call p t k =>
      dsimp only [Session.step]
      cases hc : s.clients p with
      | none => exact h
      | some c =>
          dsimp only
          split
          · rename_i hidle
            exact h.setClient (h.tokens p c hc)
              ((h.clients p c hc).begin (Option.isNone_iff_eq_none.1 hidle) t k)
          · exact h
  | proceed p =>
      dsimp only [Session.step]
      cases hc : s.clients p with
      | none => exact h
      | some c => exact h.setClient (h.tokens p c hc) (h.clients p c hc).proceed.1
  | serve p iter => exact h.serve p iter

theorem run_invariant (secondaryServer : Option (SocketAddr × TcpStream)) (inputs : List Input) :
    Invariant ((machine secondaryServer).run inputs).1 := by
  refine IOMachine.run_invariant Invariant ⟨new_regular secondaryServer, ?_, ?_⟩
    (fun s i h => h.step i) inputs
  · intro p c hc
    cases hc
  · intro p c hc
    cases hc

/-- The client `p` is inside `k`, as reader or as writer. -/
def Inside (s : Session) (p : ProcId) (k : KeyId) (a : RequestType) : Prop :=
  ∃ c, s.clients p = some c ∧ c.inside k = some a

/-- While a client is inside a key as writer, no other client is inside it. -/
def MutuallyExclusive (s : Session) : Prop :=
  ∀ k p q a, s.Inside p k .write → s.Inside q k a → q = p

/-- **Mutual exclusion among the clients** in every state of every session. -/
theorem clients_exclusive (secondaryServer : Option (SocketAddr × TcpStream))
    (inputs : List Input) : MutuallyExclusive ((machine secondaryServer).run inputs).1 := by
  have hinv := run_invariant secondaryServer inputs
  rintro k p q a ⟨c, hc, hwriter⟩ ⟨d, hd, hinside⟩
  -- both have what they are inside by from the lock of the key
  have hp := (hinv.clients p c hc).inside k .write hwriter
  have hq := (hinv.clients q d hd).inside k a hinside
  unfold holds at hp hq
  cases hks : ((machine secondaryServer).run inputs).1.registry.accessManager.keyStates k with
  | none =>
      rw [hks] at hp
      cases hp
  | some ks =>
      obtain ⟨l, creator, rfl⟩ := hinv.regular.valid.fair k ks hks
      rw [hks, AccessManager.accessOf_ofLock] at hp
      obtain ⟨m, hm, hrequest⟩ := Option.map_eq_some_iff.1 hp
      have hw : l.writer = some p := by
        cases m with
        | read => cases hrequest
        | write => exact (Lock.mode_eq_write_iff _ p).1 hm
      have hr : l.readers = ∅ := l.exclusive (by simp [hw])
      by_contra hne
      simp [hks, accessOf, hw, hr, Ne.symm hne] at hq

/-- Two clients ask to write a key; the second gets in when the first has left. -/
example :
    let s := ((machine none).run
      [.connect ⟨"127.0.0.1", 4000⟩, .connect ⟨"127.0.0.1", 4001⟩, .connect ⟨"127.0.0.1", 4002⟩,
        .call 1 .create 0, .proceed 1, .serve 1 .ascending, .proceed 1, .proceed 1,
        .call 1 .write 0, .proceed 1, .serve 1 .ascending, .proceed 1, .proceed 1,
        .call 2 .write 0, .proceed 2, .serve 2 .ascending, .proceed 2, .proceed 2,
        .call 1 .release 0, .proceed 1, .serve 1 .ascending, .proceed 2]).1
    ((s.clients 1).map fun c => c.inside 0) = some none ∧
      ((s.clients 2).map fun c => c.inside 0) = some (some .write) := by decide

end Session

end Soros
