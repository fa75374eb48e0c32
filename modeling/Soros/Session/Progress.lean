import Soros.Session.Turns

set_option autoImplicit false

/-! # Sessions do not get stuck

A session stands still when no call in progress can go on and the registry has read everything.
All calls that are then left are reads and writes that wait for a key which somebody is inside
(`quiet_waits`), so a session goes on as long as clients leave the keys that they are inside. It
always does if they ask for keys in an order (`ordered_progress`): somebody is then inside a key
without waiting for another. And it does not run on for nothing: a call takes five steps at most,
whatever the others do (`work_bounded`). -/

namespace Soros

open RwLock
open AccessManager (accessOf_ofLock)
open ProtocolClient (request settle confirm awaitGrant outcome)
open RegistryServer (spoken)

namespace Session

variable {p : ProcId} {entries : KeyId → List RequestType} {access : KeyId → Option RequestType}
  {c : Client}

/-! ## What is left of a call -/

/-- The most steps that the call in progress can still take. -/
def work (c : Client) : Nat :=
  match c.running with
  | some (_, _, .call (.call (.writeAll _)) _) => 5
  | some (_, _, .call (.call _) _) => 3 + c.outbox.length
  | some (_, _, .call .receive _) =>
      match c.inbox.head? with
      | some (.registry (.response (.wait _))) => 2
      | _ => 1
  | _ => 0

theorem work_idle (h : c.running = none) : work c = 0 := by simp [work, h]

theorem work_starting {t : RequestType} {k : KeyId}
    (h : c.running = some (t, k, c.self.syncCall t k)) : work c = 5 := by
  obtain ⟨rest, hcall, -⟩ := c.self.syncCall_writes t k
  simp [work, h, hcall]

theorem work_confirm {t : RequestType} {k : KeyId}
    (h : c.running = some (t, k, c.self.confirm t k)) : work c = 3 + c.outbox.length := by
  obtain ⟨rest, hcall, -⟩ := c.self.confirm_peeks t k
  simp [work, h, hcall]

theorem work_receive {t : RequestType} {k : KeyId}
    {cont : SocketOp.receive.Result → ProtocolClient.Method (Option SocketAddr)}
    (h : c.running = some (t, k, .call .receive cont)) :
    work c ≤ 2 ∧ ((∀ k', said (.wait k') ∉ c.inbox) → work c = 1) ∧
      ∀ k' inbox, c.inbox = said (.wait k') :: inbox → work c = 2 := by
  have hwork : work c = match c.inbox.head? with
      | some (.registry (.response (.wait _))) => 2
      | _ => 1 := by simp [work, h]
  rw [hwork]
  refine ⟨?_, fun hno => ?_, fun k' inbox hinbox => by rw [hinbox]; rfl⟩
  · split <;> simp
  · split
    · rename_i k' hhead
      exact absurd (List.mem_of_mem_head? hhead) (hno k')
    · rfl

/-- Each step of a client takes a step off its call. -/
theorem Proceeds.work_le {b : Bool} {r : Client × List Event}
    (h : Proceeds p entries access c b r) : work r.1 + b.toNat ≤ work c := by
  cases h with
  | idle | unread | blocked => exact Nat.le_refl _
  | writes t k hrunning => rw [work_starting hrunning, work_confirm rfl]; rfl
  | confirms t k hrunning hinbox houtbox =>
      obtain ⟨cont, hsettle, -⟩ := ProtocolClient.settle_receives t k
      have hnext := (work_receive (c := { c with running := some (t, k, settle t k) })
        (t := t) (k := k) (by rw [hsettle])).1
      rw [work_confirm hrunning]
      dsimp only [Bool.toNat_true]
      omega
  | told m k inbox hrunning hinbox houtbox hgrant =>
      obtain ⟨cont, hsettle, -⟩ := ProtocolClient.settle_receives (requestOf m) k
      obtain ⟨cont', hawait⟩ := ProtocolClient.awaitGrant_calls m k
      rw [(work_receive (hrunning.trans (by rw [hsettle]))).2.2 k inbox hinbox,
        (work_receive (c := { c with running := some (requestOf m, k, awaitGrant m k), inbox })
          (t := requestOf m) (k := k) (by rw [hawait])).2.1 hgrant]
      rfl
  | returns t k response cont hrunning hinbox houtbox hfinal =>
      rw [(work_receive hrunning).2.1 fun k' hmem => ?_, work_idle rfl]
      · rfl
      · rw [hinbox, List.mem_singleton] at hmem
        exact hfinal.not_wait k' (by simpa [said] using hmem.symm)

/-- Hearing of its own grants is no work for a client. -/
theorem work_observe {k : KeyId} {ts : List RequestType} {responses : List RegistryResponse}
    (h : List.Forall₂ (Grants k) ts responses) :
    work { c with inbox := c.inbox ++ responses.map said } ≤ work c := by
  unfold work
  dsimp only
  split
  · exact Nat.le_refl _
  · exact Nat.le_refl _
  · cases hinbox : c.inbox with
    | cons message inbox => exact Nat.le_refl _
    | nil =>
        cases h with
        | nil => exact Nat.le_refl _
        | cons hgrants hrest => cases hgrants <;> exact Nat.le_refl _
  · exact Nat.le_refl _

/-! ## Calls are short -/

/-- What the client `p` has left of its call. -/
def workOf (p : ProcId) (s : Session) : Nat := (s.clients p).elim 0 work

theorem Turn.work_le {s s' : Session} {i : Input} {q : ProcId} {o o' : Option Client}
    (h : Turn s s' i q o o') :
    o'.elim 0 work + (advances q s i).toNat ≤ o.elim 0 work + 5 * (starts q s i).toNat := by
  cases h with
  | stays o hholds hadvances => rw [hadvances]; exact Nat.le_add_right _ _
  | connects c hholds hidle hinside hadvances =>
      rw [hadvances, Option.elim_some, work_idle hidle]
      exact Nat.zero_le _
  | primary o hprimary hadvances => rw [hadvances]; exact Nat.zero_le _
  | begins c t k hi hholds hidle hadvances hstarts =>
      rw [hadvances, hstarts, Option.elim_some, Option.elim_some, work_idle hidle,
        work_starting (c := begin c t k) rfl]
      rfl
  | proceeds c b r hproceeds hholds hadvances =>
      rw [hadvances]
      exact Nat.le_trans hproceeds.work_le (Nat.le_add_right _ _)
  | answered c t k response hrunning hinbox houtbox hgains hadvances =>
      rw [hadvances, Option.elim_some, Option.elim_some, work_confirm hrunning, houtbox,
        work_confirm (c := { c with inbox := [said response], outbox := [] }) hrunning]
      exact Nat.le_add_right _ _
  | observes c k responses hobserves hgains hadvances =>
      obtain ⟨granted, -, htold, -⟩ := hobserves.told
      rw [hadvances]
      exact Nat.le_trans (work_observe htold) (Nat.le_add_right _ _)

/-- The client `p` is in a call. -/
def InCall (p : ProcId) (s : Session) : Bool := (s.clients p).any fun c => c.running.isSome

/-- No call has more than five steps left. -/
theorem Good.work_le (h : Good p entries access c) : work c ≤ 5 * c.running.isSome.toNat := by
  have hphase := h.phase
  generalize hrunning : c.running = running, hinbox : c.inbox = inbox, houtbox : c.outbox = outbox
    at hphase
  -- after the write a client looks for the answer first, and then receives it
  have hafter : ∀ {t k rest}, outbox.length ≤ 1 → running = some (t, k, rest) →
      rest = c.self.confirm t k ∨ rest = settle t k → work c ≤ 5 := by
    rintro t k rest hlength rfl (rfl | rfl)
    · rw [work_confirm hrunning, houtbox]
      omega
    · obtain ⟨cont, hsettle, -⟩ := ProtocolClient.settle_receives t k
      have htwo := (work_receive (hrunning.trans (by rw [hsettle]))).1
      omega
  cases hphase with
  | idle => rw [work_idle hrunning]; exact Nat.zero_le _
  | starting t k => exact Nat.le_of_eq (work_starting hrunning)
  | requested t k => exact hafter (Nat.le_refl 1) rfl (Or.inl rfl)
  | answered t k response rest hrest => exact hafter (Nat.zero_le 1) rfl hrest
  | waited m k rest inbox hrest => exact hafter (Nat.zero_le 1) rfl hrest
  | waiting m k inbox =>
      obtain ⟨cont, hawait⟩ := ProtocolClient.awaitGrant_calls m k
      have htwo := (work_receive (hrunning.trans (by rw [hawait]))).1
      exact Nat.le_trans htwo (Nat.le_add_left 2 3)

theorem Invariant.workOf_le {s : Session} (h : Invariant s) (p : ProcId) :
    workOf p s ≤ 5 * (InCall p s).toNat := by
  unfold workOf InCall
  cases hc : s.clients p with
  | none => exact Nat.zero_le _
  | some c => exact (h.clients p c hc).work_le

/-- **A call takes five steps at most**, in every session: those of the client and the one of the
registry that reads the request. From any moment on, there are no more steps than five for the call
that the client is in and five for each that it begins. The waiting between them costs none, and a
message that the client receives counts as one step, however many reads it comes in. -/
theorem work_bounded (secondaryServer : Option (SocketAddr × TcpStream)) (p : ProcId)
    (before inputs : List Input) :
    let s := ((machine secondaryServer).run before).1
    (machine secondaryServer).tally (advances p) s inputs ≤
      5 * ((InCall p s).toNat + (machine secondaryServer).tally (starts p) s inputs) := by
  intro s
  have hwork : ∀ s i, Invariant s → workOf p ((machine secondaryServer).step s i).1
      + (advances p s i).toNat ≤ workOf p s + 5 * (starts p s i).toNat :=
    fun s i h => (h.turn i p).work_le
  have hinvariant : Invariant s := run_invariant secondaryServer before
  have hbound := IOMachine.work_add_tally_le (fun s i h => h.step i) hwork hinvariant inputs
  have hleft := hinvariant.workOf_le p
  omega

/-! ## A client knows of its access, or is about to -/

/-- The client is about to lose its access to the key, or to learn of it. -/
inductive Expecting (c : Client) (k : KeyId) : Prop where
  | leaves (rest : ProtocolClient.Method (Option SocketAddr))
      (hrunning : c.running = some (.release, k, rest)) (hinbox : c.inbox = [])
  | granted (t : RequestType) (rest : ProtocolClient.Method (Option SocketAddr))
      (hrunning : c.running = some (t, k, rest)) (response : RegistryResponse)
      (hgrants : Grants k t response) (hmem : said response ∈ c.inbox)

/-- The client is inside the keys it has access to, or will be, or will not have it any more. -/
def Aware (access : KeyId → Option RequestType) (c : Client) : Prop :=
  ∀ k a, access k = some a → c.inside k = some a ∨ Expecting c k

/-- Whoever is in no call knows what it has access to. -/
theorem Aware.idle (h : Aware access c) (hidle : c.running = none) {k : KeyId} {a : RequestType}
    (ha : access k = some a) : c.inside k = some a := by
  rcases h k a ha with hinside | ⟨rest, hrunning, -⟩ | ⟨t, rest, hrunning, -⟩
  · exact hinside
  · rw [hidle] at hrunning; cases hrunning
  · rw [hidle] at hrunning; cases hrunning

theorem Aware.begin (h : Aware access c) (hidle : c.running = none) (hinbox : c.inbox = [])
    (t : RequestType) (k : KeyId) : Aware access (begin c t k) := by
  intro k' a ha
  have hinside := h.idle hidle ha
  by_cases hrelease : t = .release ∧ k' = k
  · obtain ⟨rfl, rfl⟩ := hrelease
    exact Or.inr (.leaves _ rfl hinbox)
  · refine Or.inl ?_
    dsimp only [Session.begin]
    split
    · rename_i ht
      rw [Function.update_of_ne fun hk => hrelease ⟨ht, hk⟩, hinside]
    · exact hinside

/-- What a client learns from its answer. -/
theorem learn_final (inside : KeyId → Option RequestType) {response : RegistryResponse}
    {t : RequestType} {k : KeyId} (hfinal : Final t k response) :
    learn inside t k (outcome t k response) = inside ∨
      Grants k t response ∧
        learn inside t k (outcome t k response) = Function.update inside k (some t) := by
  cases hfinal with
  | refused text => cases t <;> exact Or.inl rfl
  | done ht =>
      cases t with
      | create | delete | release => exact Or.inl rfl
      | read => exact absurd rfl ht.1
      | write => exact absurd rfl ht.2
  | granted _ hgrants =>
      refine Or.inr ⟨hgrants, ?_⟩
      cases hgrants <;> rfl

theorem learn_granted {inside : KeyId → Option RequestType} {response : RegistryResponse}
    {t : RequestType} {k : KeyId} (h : Grants k t response) :
    learn inside t k (outcome t k response) k = some t := by
  cases h <;> exact Function.update_self _ _ _

theorem Proceeds.aware {b : Bool} {r : Client × List Event} (h : Proceeds p entries access c b r)
    (haware : Aware access c) : Aware access r.1 := by
  cases h with
  | idle | unread | blocked => exact haware
  | writes t k hrunning | confirms t k hrunning =>
      intro k' a ha
      rcases haware k' a ha with hinside | ⟨rest, heq, hno⟩ | ⟨t', rest, heq, response, hgrants, hmem⟩
      · exact Or.inl hinside
      · obtain ⟨rfl, rfl, -⟩ : _ ∧ _ ∧ _ := by simpa using hrunning.symm.trans heq
        exact Or.inr (.leaves _ rfl hno)
      · obtain ⟨rfl, rfl, -⟩ : _ ∧ _ ∧ _ := by simpa using hrunning.symm.trans heq
        exact Or.inr (.granted _ _ rfl response hgrants hmem)
  | told m k inbox hrunning hinbox =>
      intro k' a ha
      rcases haware k' a ha with hinside | ⟨rest, heq, hno⟩ | ⟨t', rest, heq, response, hgrants, hmem⟩
      · exact Or.inl hinside
      · rw [hinbox] at hno
        cases hno
      · obtain ⟨rfl, rfl, -⟩ : _ ∧ _ ∧ _ := by simpa using hrunning.symm.trans heq
        rw [hinbox, List.mem_cons] at hmem
        rcases hmem with hwait | hmem
        · have hsame : response = .wait k := by simpa [said] using hwait
          exact absurd hsame ((Final.granted response hgrants).not_wait k)
        · exact Or.inr (.granted _ _ rfl response hgrants hmem)
  | returns t k response cont hrunning hinbox houtbox hfinal ha =>
      intro k' a hk'
      refine Or.inl ?_
      dsimp only
      rcases haware k' a hk' with hinside | ⟨rest, heq, hno⟩ | ⟨t', rest, heq, response', hgrants, hmem⟩
      · rcases learn_final c.inside hfinal with hsame | ⟨hgrants, hlearn⟩
        · rw [hsame, hinside]
        · rw [hlearn]
          by_cases hk : k' = k
          · subst hk
            rw [Function.update_self, ← hk', ha hgrants]
          · rw [Function.update_of_ne hk, hinside]
      · rw [hinbox] at hno
        cases hno
      · obtain ⟨rfl, rfl, -⟩ : _ ∧ _ ∧ _ := by simpa using hrunning.symm.trans heq
        rw [hinbox, List.mem_singleton] at hmem
        obtain rfl : response' = response := by simpa [said] using hmem
        rw [learn_granted hgrants, ← hk', ha hgrants]

theorem Observes.nothing_of_nil {k : KeyId} {entries' : KeyId → List RequestType}
    {access' : KeyId → Option RequestType} {responses : List RegistryResponse}
    (h : Observes k entries entries' access access' responses) (he : entries k = []) :
    responses = [] := by
  obtain ⟨granted, hentries, htold, -⟩ := h.told
  rw [he] at hentries
  obtain ⟨rfl, -⟩ := List.append_eq_nil_iff.1 hentries.symm
  exact List.forall₂_nil_left_iff.1 htold

/-- Whoever is told something has waited for it. -/
theorem Pending.told {m : Mode} {k k' : KeyId} {inbox : List Message}
    {entries' : KeyId → List RequestType} {access' : KeyId → Option RequestType}
    {responses : List RegistryResponse} (hpending : Pending entries access m k' inbox)
    (hobserves : Observes k entries entries' access access' responses)
    {response : RegistryResponse} (hmem : response ∈ responses) :
    k' = k ∧ Grants k (requestOf m) response := by
  have hwaits : entries k ≠ [] := fun he => by
    rw [hobserves.nothing_of_nil he] at hmem
    cases hmem
  cases hpending with
  | granted response he => exact absurd (he k) hwaits
  | queued he =>
      obtain ⟨granted, hentries, htold, -⟩ := hobserves.told
      rw [he k] at hwaits hentries
      split at hwaits
      · rename_i hk
        rw [if_pos hk] at hentries
        rcases List.singleton_eq_append_iff.1 hentries with ⟨rfl, -⟩ | ⟨rfl, -⟩
        · rw [List.forall₂_nil_left_iff.1 htold] at hmem
          cases hmem
        · obtain ⟨response', rest, hgrants, hnil, rfl⟩ := List.forall₂_cons_left_iff.1 htold
          rw [List.forall₂_nil_left_iff.1 hnil, List.mem_singleton] at hmem
          rw [hmem]
          exact ⟨hk.symm, hgrants⟩
      · exact absurd rfl hwaits

theorem Good.told (h : Good p entries access c) {k : KeyId} {entries' : KeyId → List RequestType}
    {access' : KeyId → Option RequestType} {responses : List RegistryResponse}
    (hobserves : Observes k entries entries' access access' responses)
    {response : RegistryResponse} (hmem : response ∈ responses) :
    ∃ m rest, c.running = some (requestOf m, k, rest) ∧ Grants k (requestOf m) response := by
  have hwaits : ¬ ∀ k', entries k' = [] := fun he => by
    rw [(hobserves.nothing he).1] at hmem
    cases hmem
  have hphase := h.phase
  generalize c.running = running, c.inbox = inbox, c.outbox = outbox at hphase
  cases hphase with
  | idle he | starting t k he | requested t k he => exact absurd he hwaits
  | answered t k response rest hrest he => exact absurd he hwaits
  | waited m k' rest inbox hrest hpending =>
      obtain ⟨rfl, hgrants⟩ := hpending.told hobserves hmem
      exact ⟨m, _, rfl, hgrants⟩
  | waiting m k' inbox hpending =>
      obtain ⟨rfl, hgrants⟩ := hpending.told hobserves hmem
      exact ⟨m, _, rfl, hgrants⟩

/-- A release waits for nobody. -/
theorem Good.leaves (h : Good p entries access c) {k : KeyId}
    {rest : ProtocolClient.Method (Option SocketAddr)}
    (hrunning : c.running = some (.release, k, rest)) (k' : KeyId) : entries k' = [] := by
  have hphase := h.phase
  rw [hrunning] at hphase
  have hno : ∀ m, requestOf m ≠ RequestType.release := fun m => by cases m <;> simp [requestOf]
  generalize hrun : some (RequestType.release, k, rest) = running, c.inbox = inbox,
    c.outbox = outbox at hphase
  cases hphase with
  | idle he | starting t k he | requested t k he => exact he k'
  | answered t k response rest hrest he => exact he k'
  | waited m | waiting m =>
      simp only [Option.some.injEq, Prod.mk.injEq] at hrun
      exact absurd hrun.1.symm (hno m)

theorem Good.idle_inbox (h : Good p entries access c) (hidle : c.running = none) :
    c.inbox = [] := by
  have hphase := h.phase
  rw [hidle] at hphase
  generalize c.inbox = inbox, c.outbox = outbox at hphase ⊢
  cases hphase with
  | idle => rfl

theorem Turn.aware {s s' : Session} {i : Input} {q : ProcId} {o o' : Option Client}
    (h : Turn s s' i q o o')
    (hgood : ∀ c, o = some c → Good q (waits s.registry q) (holds s.registry q) c)
    (haware : ∀ c, o = some c → Aware (holds s.registry q) c) :
    ∀ c, o' = some c → Aware (holds s'.registry q) c := by
  intro c' hc'
  cases h with
  | stays o hholds =>
      rw [hholds]
      exact haware c' hc'
  | connects c hholds =>
      intro k a ha
      rw [hholds k] at ha
      cases ha
  | primary o => cases hc'
  | begins c t k hi hholds hidle =>
      cases hc'
      rw [hholds]
      exact (haware c rfl).begin hidle ((hgood c rfl).idle_inbox hidle) t k
  | proceeds c b r hproceeds hholds =>
      cases hc'
      rw [hholds]
      exact hproceeds.aware (haware c rfl)
  | answered c t k response hrunning hinbox houtbox hgains =>
      cases hc'
      intro k' a ha
      rcases hgains k' a ha with ⟨hold, hother⟩ | ⟨rfl, hgrants, rfl⟩
      · rcases haware c rfl k' a hold with hinside | ⟨rest, heq, -⟩ | ⟨t', rest, heq, response', -, hmem⟩
        · exact Or.inl hinside
        · obtain ⟨rfl, rfl, -⟩ : _ ∧ _ ∧ _ := by simpa using hrunning.symm.trans heq
          exact absurd rfl (hother rfl)
        · rw [hinbox] at hmem
          cases hmem
      · exact Or.inr (.granted _ _ hrunning response hgrants List.mem_cons_self)
  | observes c k responses hobserves hgains =>
      cases hc'
      intro k' a ha
      rcases hgains k' a ha with hold | ⟨rfl, response, hmem, hgrants⟩
      · rcases haware c rfl k' a hold with hinside | ⟨rest, heq, hno⟩ | ⟨t', rest, heq, response', hgrants, hmem⟩
        · exact Or.inl hinside
        · refine Or.inr (.leaves rest heq ?_)
          rw [(hobserves.nothing ((hgood c rfl).leaves heq)).1]
          simpa using hno
        · exact Or.inr (.granted t' rest heq response' hgrants (List.mem_append_left _ hmem))
      · obtain ⟨m, rest, hrunning, hown⟩ := (hgood c rfl).told hobserves hmem
        exact Or.inr (.granted _ rest hrunning response hown
          (List.mem_append_right _ (List.mem_map_of_mem hmem)))

/-! ## Everybody is there -/

/-- Whoever has a token is there. -/
structure Populated (s : Session) : Prop where
  backup : s.registry.backupToken = 999
  fresh : s.registry.AwaitsPrimary → s.registry.idCounter = 0
  clients : ∀ p, IsToken s.registry p → (s.clients p).isSome

theorem Populated.setClient {s : Session} (h : Populated s) (p : ProcId) (c : Client) :
    Populated (s.setClient p (some c)) := by
  refine ⟨h.backup, h.fresh, fun q hq => ?_⟩
  by_cases heq : q = p
  · rw [heq, setClient_clients, Function.update_self]
    rfl
  · rw [setClient_clients, Function.update_of_ne heq]
    exact h.clients q hq

theorem Populated.connect {s : Session} (h : Populated s) (addr : SocketAddr) :
    Populated (s.step (.connect addr)).1 := by
  obtain ⟨s', hs'⟩ : ∃ s', s' = (s.step (.connect addr)).1 := ⟨_, rfl⟩
  rw [← hs']
  dsimp only [Session.step, react] at hs'
  have hstep := step_connection s.registry .ascending s.registry.nextToken addr
  generalize RegistryServer.step Serde.direct s.registry
    (.connection (Env.calm .ascending) s.registry.nextToken addr) = r' at hstep hs'
  have hregistry : s'.registry = r'.1 := by rw [hs', setClient_registry]
  have hclients := congrArg Session.clients hs'
  dsimp only [setClient_clients] at hclients
  split at hstep
  -- the primary registry comes first, and its token is nobody's
  · rename_i hfirst
    have hnobody := h.fresh (by simpa [RegistryServer.AwaitsPrimary] using hfirst)
    refine ⟨?_, ?_, fun q hq => ?_⟩
    · rw [hregistry, hstep.1]
      exact h.backup
    · rw [hregistry, hstep.1]
      exact fun _ => hnobody
    · rw [hregistry, hstep.1] at hq
      have hle : q ≤ 0 := hnobody ▸ hq.2
      exact absurd (Nat.le_trans hq.1 hle) (by decide)
  · rename_i hfirst
    have hawaits : ¬ s.registry.AwaitsPrimary := by
      simpa [RegistryServer.AwaitsPrimary] using hfirst
    refine ⟨?_, ?_, fun q hq => ?_⟩
    · rw [hregistry, hstep.1]
      exact h.backup
    · rw [hregistry, hstep.1]
      exact fun hno => absurd hno hawaits
    · rw [hregistry, hstep.1] at hq
      rw [hclients, hstep.2, RegistryServer.nextToken_client hawaits]
      by_cases heq : q = s.registry.idCounter + 1
      · rw [heq, Function.update_self]
        simp only [sentTo, List.filterMap_cons, List.filterMap_nil, if_true]
        rfl
      · rw [Function.update_of_ne heq, Option.isSome_map]
        exact h.clients q ⟨hq.1, Nat.le_of_lt_succ (Nat.lt_of_le_of_ne hq.2 heq)⟩

theorem Populated.serve {s : Session} (h : Populated s) (p : ProcId) (iter : SetIter ProcId) :
    Populated (s.step (.serve p iter)).1 := by
  dsimp only [Session.step]
  split
  · rename_i c hc
    split
    · rename_i message outbox houtbox
      split
      · exact h
      · have hthere := h.setClient p { c with outbox }
        have hreadable := RegistryServer.step_readable Serde.direct (Env.calm iter) s.registry p
          (.data message)
        obtain ⟨r', hr'⟩ : ∃ r', r' = RegistryServer.step Serde.direct s.registry
          (.readable (Env.calm iter) p (.data message)) := ⟨_, rfl⟩
        dsimp only [react]
        rw [setClient_registry, ← hr']
        rw [← hr'] at hreadable
        have hsame : r'.1.backupToken = s.registry.backupToken ∧
            (r'.1.AwaitsPrimary ↔ s.registry.AwaitsPrimary) ∧
            r'.1.idCounter = s.registry.idCounter := by
          generalize r'.1 = s' at hreadable
          cases hreadable with
          | idle => exact ⟨rfl, Iff.rfl, rfl⟩
          | gone => exact ⟨rfl, Iff.rfl, rfl⟩
          | request data s' hstream hno hs' =>
              rw [hs']
              exact ⟨rfl, Iff.rfl, rfl⟩
        refine ⟨hsame.1.trans h.backup, fun hno => ?_, fun q hq => ?_⟩
        · rw [hsame.2.2]
          exact h.fresh (hsame.2.1.1 hno)
        · rw [Option.isSome_map]
          unfold IsToken at hq
          rw [hsame.2.2] at hq
          exact hthere.clients q hq
    · exact h
  · exact h

theorem Populated.step {s : Session} (h : Populated s) (i : Input) : Populated (s.step i).1 := by
  cases i with
  | connect addr => exact h.connect addr
  | call p t k =>
      dsimp only [Session.step]
      split
      · split
        · exact h.setClient p _
        · exact h
      · exact h
  | proceed p =>
      dsimp only [Session.step]
      split
      · exact h.setClient p _
      · exact h
  | serve p iter => exact h.serve p iter

/-! ## What stands still -/

/-- **The invariant of a session**, for what is yet to come. -/
structure Promising (s : Session) : Prop where
  invariant : Invariant s
  populated : Populated s
  aware : ∀ p c, s.clients p = some c → Aware (holds s.registry p) c

theorem Promising.step {s : Session} (h : Promising s) (i : Input) : Promising (s.step i).1 :=
  ⟨h.invariant.step i, h.populated.step i,
    fun p => (h.invariant.turn i p).aware (h.invariant.clients p) (h.aware p)⟩

theorem run_promising (secondaryServer : Option (SocketAddr × TcpStream)) (inputs : List Input) :
    Promising ((machine secondaryServer).run inputs).1 := by
  refine IOMachine.run_invariant Promising
    ⟨run_invariant secondaryServer [], ⟨rfl, fun _ => rfl, ?_⟩, ?_⟩ (fun s i h => h.step i) inputs
  · rintro p ⟨hlow, hhigh⟩
    exact absurd (Nat.le_trans hlow hhigh) (Nat.not_succ_le_zero 0)
  · intro p c hc
    cases hc

/-- No call in progress goes on, and the registry has nothing to read. -/
def Quiet (s : Session) : Prop := ∀ p i, advances p s i = false

/-- The client waits for the registry to grant a request on the key. -/
def Blocked (s : Session) (p : ProcId) (k : KeyId) : Prop :=
  ∃ c m, s.clients p = some c ∧ c.inbox = [] ∧ waits s.registry p k = [requestOf m] ∧
    c.running = some (requestOf m, k, awaitGrant m k)

/-- In silence a client is in no call, or waits for the registry. -/
theorem Promising.quiet {s : Session} (h : Promising s) (hquiet : Quiet s)
    (hfew : s.registry.idCounter < 999) {p : ProcId} {c : Client} (hc : s.clients p = some c) :
    c.running = none ∨ ∃ k, Blocked s p k := by
  have hgood := h.invariant.clients p c hc
  have hready : ready c = false := by simpa [advances, hc] using hquiet p (.proceed p)
  have hproceeds := hgood.proceeds
  rw [hready] at hproceeds
  generalize Session.proceed p c = r at hproceeds
  cases hproceeds with
  | idle hrunning => exact Or.inl hrunning
  | unread t k hrunning hinbox houtbox =>
      have htoken := h.invariant.tokens p c hc
      have hbackup : p ≠ s.registry.backupToken := by
        rw [h.populated.backup]
        exact Nat.ne_of_lt (Nat.lt_of_le_of_lt htoken.2 hfew)
      have hread := hquiet p (.serve p .ascending)
      simp [advances, hc, houtbox, hbackup] at hread
  | blocked m k hrunning hinbox houtbox he =>
      exact Or.inr ⟨k, c, m, hc, hinbox, he, hrunning⟩

/-- Somebody has access to a key that somebody waits for. -/
theorem Regular.held {r : RegistryServer} (h : Regular r) {p : ProcId} {k : KeyId}
    (hwaits : waits r p k ≠ []) : ∃ q a, holds r q k = some a ∧ IsToken r q := by
  unfold waits at hwaits
  cases hks : r.accessManager.keyStates k with
  | none =>
      rw [hks] at hwaits
      exact absurd rfl hwaits
  | some ks =>
      obtain ⟨l, creator, rfl⟩ := h.valid.fair k ks hks
      have hbusy : ¬ l.Idle := fun hidle => by
        rw [hks, entriesOf_ofLock, FairLock.queue_of_idle hidle] at hwaits
        exact hwaits rfl
      rw [Lock.idle_iff_mode] at hbusy
      push Not at hbusy
      obtain ⟨q, hmode⟩ := hbusy
      obtain ⟨m, hm⟩ := Option.ne_none_iff_exists'.1 hmode
      have hholds : holds r q k = some (requestOf m) := by
        rw [holds, hks, accessOf_ofLock, hm]
        rfl
      refine ⟨q, requestOf m, hholds, ?_⟩
      by_contra hstranger
      rw [h.holds_stranger hstranger] at hholds
      cases hholds

/-- **In silence whoever waits, waits for a key that somebody is inside.** -/
theorem Promising.occupied {s : Session} (h : Promising s) (hquiet : Quiet s)
    (hfew : s.registry.idCounter < 999) {p : ProcId} {k : KeyId} (hblocked : Blocked s p k) :
    ∃ q a, Inside s q k a := by
  obtain ⟨-, m, -, -, hwaits, -⟩ := hblocked
  obtain ⟨q, a, hholds, htoken⟩ := h.invariant.regular.held (p := p) (k := k) (by simp [hwaits])
  obtain ⟨d, hd⟩ := Option.isSome_iff_exists.1 (h.populated.clients q htoken)
  refine ⟨q, a, d, hd, ?_⟩
  rcases h.quiet hquiet hfew hd with hidle | ⟨k', d', m', hd', hinbox, -, hrunning⟩
  · exact (h.aware q d hd).idle hidle hholds
  · obtain rfl : d = d' := Option.some.inj (hd.symm.trans hd')
    rcases h.aware q d hd k a hholds with hinside | ⟨rest, heq, -⟩ | ⟨t, rest, -, response, -, hmem⟩
    · exact hinside
    · rw [hrunning] at heq
      cases m' <;> simp [requestOf] at heq
    · rw [hinbox] at hmem
      cases hmem

/-- What the client is in the middle of asking for. -/
def calling (s : Session) (p : ProcId) : Option (RequestType × KeyId) :=
  (s.clients p).bind fun c => c.running.map fun call => (call.1, call.2.1)

theorem Blocked.calling {s : Session} {p : ProcId} {k : KeyId} (h : Blocked s p k) :
    ∃ m, Session.calling s p = some (requestOf m, k) := by
  obtain ⟨c, m, hc, -, -, hrunning⟩ := h
  exact ⟨m, by simp [Session.calling, hc, hrunning]⟩

/-- In silence every call waits for the registry. -/
theorem Promising.blocked {s : Session} (h : Promising s) (hquiet : Quiet s)
    (hfew : s.registry.idCounter < 999) {p : ProcId} (hcalls : calling s p ≠ none) :
    ∃ k, Blocked s p k := by
  cases hc : s.clients p with
  | none => exact absurd (by simp [calling, hc]) hcalls
  | some c =>
      refine (h.quiet hquiet hfew hc).resolve_left fun hidle => hcalls ?_
      simp [calling, hc, hidle]

/-- **A session that stands still waits for its clients**: every call that is left is a read or a
write, and asks for a key that some client is inside. -/
theorem quiet_waits (inputs : List Input) (s : Session) (hs : s = ((machine none).run inputs).1)
    (hfew : s.registry.idCounter < 999) (hquiet : Quiet s) (p : ProcId) (t : RequestType)
    (k : KeyId) (hcalls : calling s p = some (t, k)) :
    (t = .read ∨ t = .write) ∧ ∃ q a, Inside s q k a := by
  have h : Promising s := hs ▸ run_promising none inputs
  obtain ⟨k', hblocked⟩ := h.blocked hquiet hfew (p := p) (by rw [hcalls]; exact Option.some_ne_none _)
  obtain ⟨m, hcalling⟩ := hblocked.calling
  obtain ⟨rfl, rfl⟩ : requestOf m = t ∧ k' = k := by simpa using hcalling.symm.trans hcalls
  exact ⟨by cases m <;> simp [requestOf], h.occupied hquiet hfew hblocked⟩

/-- Two writers: the second has asked for the key, and nothing happens until the first leaves. -/
def handover : List Input :=
  [.connect ⟨"127.0.0.1", 4000⟩, .connect ⟨"127.0.0.1", 4001⟩, .connect ⟨"127.0.0.1", 4002⟩,
    .call 1 .create 0, .proceed 1, .serve 1 .ascending, .proceed 1, .proceed 1,
    .call 1 .write 0, .proceed 1, .serve 1 .ascending, .proceed 1, .proceed 1,
    .call 2 .write 0, .proceed 2, .serve 2 .ascending, .proceed 2, .proceed 2]

theorem quiet_of_clients {s : Session} (h : Invariant s)
    (hall : ∀ p, p ≤ s.registry.idCounter →
      ((s.clients p).all fun c => !ready c && c.outbox.isEmpty) = true) : Quiet s := by
  intro p i
  cases hc : s.clients p with
  | none => cases i <;> simp [advances, hc]
  | some c =>
      have hstill := hall p (h.tokens p c hc).2
      rw [hc] at hstill
      cases i <;> simp_all [advances]

theorem handover_quiet : Quiet ((machine none).run handover).1 :=
  quiet_of_clients (run_invariant none handover) (by decide +kernel)

theorem quiet_waits_handover :
    (RequestType.write = .read ∨ RequestType.write = .write) ∧
      ∃ q a, Inside ((machine none).run handover).1 q 0 a :=
  quiet_waits handover _ rfl (by decide +kernel) handover_quiet 2 .write 0 (by decide +kernel)

/-! ## Keys asked for in an order -/

section

variable {α : Type} [Preorder α] (rank : KeyId → α)

/-- A call that asks for a key asks for one above all those that its client is inside. -/
def Ordered (s : Session) : Input → Prop
  | .call p t k => (t = .read ∨ t = .write) → ∀ k' a, Inside s p k' a → rank k' < rank k
  | _ => True

/-- The client asks for a key above all those that it is inside. -/
def Climbs (c : Client) : Prop :=
  ∀ m k rest, c.running = some (requestOf m, k, rest) →
    ∀ k' a, c.inside k' = some a → rank k' < rank k

theorem Turn.climbs {s s' : Session} {i : Input} {q : ProcId} {o o' : Option Client}
    (h : Turn s s' i q o o') (ho : o = s.clients q) (hordered : Ordered rank s i)
    (hclimbs : ∀ c, o = some c → Climbs rank c) : ∀ c, o' = some c → Climbs rank c := by
  have hidle : ∀ c : Client, c.running = none → Climbs rank c := by
    intro c hidle m k rest hrunning
    rw [hidle] at hrunning
    cases hrunning
  -- a client that goes on with the same call is inside the same keys
  have hsame : ∀ c c' : Client, Climbs rank c → c'.inside = c.inside → (∀ t k rest,
      c'.running = some (t, k, rest) → ∃ rest', c.running = some (t, k, rest')) →
      Climbs rank c' := by
    intro c c' hc hinside hrunning m k rest hcall k' a hk'
    obtain ⟨rest', hcall'⟩ := hrunning _ _ _ hcall
    rw [hinside] at hk'
    exact hc m k rest' hcall' k' a hk'
  intro c' hc'
  cases h with
  | stays o => exact hclimbs c' hc'
  | connects c hholds hrunning =>
      cases hc'
      exact hidle _ hrunning
  | primary o => cases hc'
  | begins c t k hi hholds hrunning =>
      cases hc'
      subst hi
      intro m k' rest hcall k'' a hk''
      obtain ⟨rfl, rfl, -⟩ : t = requestOf m ∧ k = k' ∧ _ := by simpa [begin] using hcall
      have hask : requestOf m = .read ∨ requestOf m = .write := by cases m <;> simp [requestOf]
      refine hordered hask k'' a ⟨c, ho.symm, ?_⟩
      cases m <;> simpa [begin, requestOf] using hk''
  | proceeds c b r hproceeds =>
      cases hc'
      have hc := hclimbs c rfl
      cases hproceeds with
      | idle | unread | blocked => exact hc
      | writes t k hrunning | confirms t k hrunning =>
          refine hsame c _ hc rfl fun t' k' rest hcall => ?_
          obtain ⟨rfl, rfl, -⟩ : _ ∧ _ ∧ _ := by simpa using hcall
          exact ⟨_, hrunning⟩
      | told m k inbox hrunning =>
          refine hsame c _ hc rfl fun t' k' rest hcall => ?_
          obtain ⟨rfl, rfl, -⟩ : _ ∧ _ ∧ _ := by simpa using hcall
          exact ⟨_, hrunning⟩
      | returns => exact hidle _ rfl
  | answered | observes =>
      cases hc'
      exact hsame _ _ (hclimbs _ rfl) rfl fun t' k' rest hcall => ⟨rest, hcall⟩

/-- **Clients that ask for keys in an order do not wait for each other in a circle.** While a call
is in progress, some call goes on, or some client is inside a key and in no call. -/
theorem ordered_progress (inputs : List Input) (s : Session)
    (hs : s = ((machine none).run inputs).1)
    (hordered : (machine none).Along (Ordered rank) (machine none).start inputs)
    (hfew : s.registry.idCounter < 999) (p : ProcId) (hcalls : calling s p ≠ none) :
    (∃ q i, advances q s i = true) ∨ ∃ q k a, Inside s q k a ∧ calling s q = none := by
  have h : Promising s := hs ▸ run_promising none inputs
  have hclimbs : ∀ q d, s.clients q = some d → Climbs rank d := by
    rw [hs]
    refine (IOMachine.run_induction_along (fun s _ => Invariant s ∧
      ∀ q d, s.clients q = some d → Climbs rank d) ⟨run_invariant none [], ?_⟩
      (fun s log i hC hP => ⟨hP.1.step i, fun q => (hP.1.turn i q).climbs rank rfl hC (hP.2 q)⟩)
      inputs hordered).2
    intro q d hd
    cases hd
  by_cases hquiet : Quiet s
  · obtain ⟨k, hblocked⟩ := h.blocked hquiet hfew hcalls
    refine Or.inr ?_
    -- a client waits for one key at most
    have hfin : {k | ∃ p, Blocked s p k}.Finite := by
      refine ((Set.finite_le_nat s.registry.idCounter).image fun p =>
        (calling s p).elim 0 Prod.snd).subset ?_
      rintro k ⟨p, hp⟩
      obtain ⟨d, m, hd, -⟩ := id hp
      obtain ⟨m, hcalling⟩ := hp.calling
      exact ⟨p, (h.invariant.tokens p d hd).2, by simp [hcalling]⟩
    have habove : ∀ q k k', Blocked s q k → (∃ a, Inside s q k' a) → rank k' < rank k := by
      rintro q k k' ⟨d, m, hd, -, -, hcall⟩ ⟨a, d', hd', hinside⟩
      obtain rfl : d = d' := Option.some.inj (hd.symm.trans hd')
      exact hclimbs q d hd m k _ hcall k' a hinside
    obtain ⟨q, k', ⟨a, hinside⟩, hno⟩ := exists_inside_not_blocked rank hfin
      (fun q k => h.occupied hquiet hfew) habove hblocked
    refine ⟨q, k', a, hinside, ?_⟩
    by_contra hbusy
    obtain ⟨k'', hq⟩ := h.blocked hquiet hfew hbusy
    exact hno k'' hq
  · unfold Quiet at hquiet
    push Not at hquiet
    obtain ⟨q, i, hq⟩ := hquiet
    exact Or.inl ⟨q, i, by simpa using hq⟩

end

theorem ordered_progress_handover :
    (∃ q i, advances q ((machine none).run handover).1 i = true) ∨
      ∃ q k a, Inside ((machine none).run handover).1 q k a ∧
        calling ((machine none).run handover).1 q = none := by
  refine ordered_progress id handover _ rfl ?_ (by decide +kernel) 2 (by decide +kernel)
  refine ⟨trivial, trivial, trivial, ?_, trivial, trivial, trivial, trivial, ?_, trivial, trivial,
    trivial, trivial, ?_, trivial, trivial, trivial, trivial, trivial⟩
  · rintro (hno | hno) <;> cases hno
  · rintro - k' a ⟨c, hc, hinside⟩
    cases hc
    cases hinside
  · rintro - k' a ⟨c, hc, hinside⟩
    cases hc
    cases hinside

end Session

end Soros
