import Soros.Session.Exclusion

set_option autoImplicit false

/-! # Session fidelity

What the registry sends to a client, against what it has read from it. Grants are sent while
the registry serves somebody else, so the order of answers and grants on one connection is
left to the interleaving; `Dialogue` says which orders there are, and `session_fidelity` that
every session keeps to them. -/

namespace Soros

open RwLock
open RegistryServer (spoken)
open ProtocolClient (outcome)

namespace Session

/-! ## Dialogues -/

/-- The messages of `p` that the registry has read, in order. -/
def askedBy (p : ProcId) (log : List Event) : List Message :=
  log.filterMap fun
    | .asked q message => if q = p then some message else none
    | _ => none

/-- The messages that the registry has written on the socket of `p`, in order. -/
def toldTo (p : ProcId) (log : List Event) : List Message :=
  log.filterMap fun
    | .sent q message => if q = p then some message else none
    | _ => none

/-- **What passes between the registry and a client.** The requests read so far, the responses
sent so far, and the request that has been told to wait and is not granted yet. -/
inductive Dialogue (p : ProcId) : List Message → List Message → Option (Mode × KeyId) → Prop where
  | nothing : Dialogue p [] [] none
  /-- A `Success`, a `Holder` or an `Error`, and the client may go on. -/
  | settled (asked told : List Message) (t : RequestType) (k : KeyId) (response : RegistryResponse)
      (h : Dialogue p asked told none) (hfinal : Final t k response) :
      Dialogue p (asked ++ [.registry (.request p t k)]) (told ++ [said response]) none
  | waits (asked told : List Message) (m : Mode) (k : KeyId) (h : Dialogue p asked told none) :
      Dialogue p (asked ++ [.registry (.request p (requestOf m) k)]) (told ++ [said (.wait k)])
        (some (m, k))
  /-- The grant of the right kind and key. -/
  | granted (asked told : List Message) (m : Mode) (k : KeyId) (response : RegistryResponse)
      (h : Dialogue p asked told (some (m, k))) (hgrants : Grants k (requestOf m) response) :
      Dialogue p asked (told ++ [said response]) none

/-- What the registry has queued for a client with this request waiting. -/
def queuedFor : Option (Mode × KeyId) → KeyId → List RequestType
  | none, _ => []
  | some (m, k), k' => if k' = k then [requestOf m] else []

/-- The dialogue so far fits what the registry has queued for the client. -/
def Conversing (r : RegistryServer) (p : ProcId) (asked told : List Message) : Prop :=
  ∃ pending, Dialogue p asked told pending ∧ ∀ k, waits r p k = queuedFor pending k

namespace Conversing

variable {r r' : RegistryServer} {p : ProcId} {asked told : List Message}

/-- A client that waits for nothing may be answered. -/
theorem answers (h : Conversing r p asked told) (he : ∀ k, waits r p k = []) {t : RequestType}
    {k : KeyId} {response : RegistryResponse}
    (hanswers : Answers t k (waits r' p) (holds r' p) response) :
    Conversing r' p (asked ++ [.registry (.request p t k)]) (told ++ [said response]) := by
  obtain ⟨pending, hdialogue, hqueued⟩ := h
  have hnone : pending = none := by
    cases pending with
    | none => rfl
    | some w =>
        have hentry := hqueued w.2
        rw [he w.2, queuedFor, if_pos rfl] at hentry
        cases hentry
  subst hnone
  cases hanswers with
  | final _ he' hfinal ha => exact ⟨none, .settled asked told t k response hdialogue hfinal, he'⟩
  | wait m ht he' =>
      subst ht
      exact ⟨some (m, k), .waits asked told m k hdialogue, he'⟩

/-- While another client is served, a waiting client may be granted its request. -/
theorem observes (h : Conversing r p asked told) {k : KeyId} {responses : List RegistryResponse}
    (hobserves : Observes k (waits r p) (waits r' p) (holds r p) (holds r' p) responses) :
    Conversing r' p asked (told ++ responses.map said) := by
  obtain ⟨pending, hdialogue, hqueued⟩ := h
  cases pending with
  | none =>
      obtain ⟨rfl, he'⟩ := hobserves.nothing hqueued
      exact ⟨none, by simpa using hdialogue, he'⟩
  | some w =>
      obtain ⟨m, k'⟩ := w
      have hpending := hobserves.pending (Pending.queued hqueued)
      rw [List.nil_append] at hpending
      generalize responses.map said = sent at hpending ⊢
      cases hpending with
      | queued he' => exact ⟨some (m, k'), by simpa using hdialogue, he'⟩
      | granted response he' hgrants ha =>
          exact ⟨none, .granted asked told m k' response hdialogue hgrants, he'⟩

/-- As long as its queue entries stay, so does the dialogue. -/
theorem stays (h : Conversing r p asked told) (hwaits : waits r' p = waits r p) :
    Conversing r' p asked told := by
  obtain ⟨pending, hdialogue, hqueued⟩ := h
  exact ⟨pending, hdialogue, fun k => by rw [hwaits, hqueued k]⟩

end Conversing

/-! ## What calls return -/

/-- A settled request is what its call expects. -/
theorem Final.expected {t : RequestType} {k : KeyId} {response : RegistryResponse}
    (h : Final t k response) :
    outcome t k response ≠ .error .unexpectedResponse ∧
      ∀ k', outcome t k response ≠ .error (.waitError k') := by
  cases h with
  | refused text => simp [outcome]
  | done ht =>
      cases t with
      | create | delete | release => simp [outcome]
      | read => exact absurd rfl ht.1
      | write => exact absurd rfl ht.2
  | granted _ hgrants => cases hgrants <;> simp [outcome]

/-! ## Sessions -/

theorem askedBy_append (p : ProcId) (log log' : List Event) :
    askedBy p (log ++ log') = askedBy p log ++ askedBy p log' := List.filterMap_append

theorem toldTo_append (p : ProcId) (log log' : List Event) :
    toldTo p (log ++ log') = toldTo p log ++ toldTo p log' := List.filterMap_append

/-- The events of what the registry writes. -/
def sends (written : List (TcpStream × Message)) : List Event :=
  written.map fun w => .sent w.1 w.2

theorem toldTo_sends (p : ProcId) (written : List (TcpStream × Message)) :
    toldTo p (sends written) = sentTo p written := by
  rw [toldTo, sends, List.filterMap_map]
  rfl

theorem askedBy_sends (p : ProcId) (written : List (TcpStream × Message)) :
    askedBy p (sends written) = [] := by
  rw [askedBy, sends, List.filterMap_map]
  exact List.filterMap_eq_nil_iff.2 fun _ _ => rfl

/-- The registry has been silent to whoever is not connected, and has greeted each client and
talked to it. -/
structure Spoken (r : RegistryServer) (p : ProcId) (asked told : List Message) : Prop where
  silent : ¬ IsToken r p → told = [] ∧ asked = []
  greeted : IsToken r p →
    ∃ answers, told = .registry (.connection p) :: answers ∧ Conversing r p asked answers

theorem Spoken.stays {r r' : RegistryServer} {p : ProcId} {asked told : List Message}
    (h : Spoken r p asked told) (htoken : IsToken r' p ↔ IsToken r p)
    (hwaits : waits r' p = waits r p) : Spoken r' p asked told := by
  refine ⟨fun hp => h.silent fun hno => hp (htoken.2 hno), fun hp => ?_⟩
  obtain ⟨answers, htold, hconversing⟩ := h.greeted (htoken.1 hp)
  exact ⟨answers, htold, hconversing.stays hwaits⟩

theorem Spoken.answers {r r' : RegistryServer} {p : ProcId} {asked told : List Message}
    (h : Spoken r p asked told) (hp : IsToken r p) (htoken : IsToken r' p ↔ IsToken r p)
    (he : ∀ k, waits r p k = []) {t : RequestType} {k : KeyId} {response : RegistryResponse}
    (hanswers : Answers t k (waits r' p) (holds r' p) response) :
    Spoken r' p (asked ++ [.registry (.request p t k)]) (told ++ [said response]) := by
  obtain ⟨answers, htold, hconversing⟩ := h.greeted hp
  refine ⟨fun hno => absurd (htoken.2 hp) hno, fun _ => ?_⟩
  exact ⟨answers ++ [said response], by rw [htold]; rfl, hconversing.answers he hanswers⟩

/-- A stranger waits for nothing, so it is told nothing. -/
theorem Spoken.observes {r r' : RegistryServer} {p : ProcId} {asked told : List Message}
    (h : Spoken r p asked told) (htoken : IsToken r' p ↔ IsToken r p)
    (hstranger : ¬ IsToken r p → ∀ k, waits r p k = []) {k : KeyId}
    {responses : List RegistryResponse}
    (hobserves : Observes k (waits r p) (waits r' p) (holds r p) (holds r' p) responses) :
    Spoken r' p asked (told ++ responses.map said) := by
  refine ⟨fun hno => ?_, fun hp => ?_⟩
  · have hunknown : ¬ IsToken r p := fun hp => hno (htoken.2 hp)
    obtain ⟨htold, hasked⟩ := h.silent hunknown
    obtain ⟨rfl, -⟩ := hobserves.nothing (hstranger hunknown)
    exact ⟨by rw [htold]; rfl, hasked⟩
  · obtain ⟨answers, htold, hconversing⟩ := h.greeted (htoken.1 hp)
    exact ⟨answers ++ responses.map said, by rw [htold]; rfl, hconversing.observes hobserves⟩

/-- **The invariant of a session with its log.** -/
structure Faithful (s : Session) (log : List Event) : Prop where
  invariant : Invariant s
  talked : ∀ p, Spoken s.registry p (askedBy p log) (toldTo p log)
  returned : ∀ p t k r, .returned p t k r ∈ log →
    ∃ response, Final t k response ∧ r = outcome t k response

/-- A step of which only the log of calls is affected. -/
theorem Faithful.quiet {s s' : Session} {log events : List Event} (h : Faithful s log)
    (hinv : Invariant s') (hregistry : s'.registry = s.registry)
    (hasked : ∀ p, askedBy p events = []) (htold : ∀ p, toldTo p events = [])
    (hreturned : ∀ p t k r, .returned p t k r ∈ events →
      ∃ response, Final t k response ∧ r = outcome t k response) :
    Faithful s' (log ++ events) := by
  refine ⟨hinv, fun p => ?_, fun p t k r he => ?_⟩
  · rw [askedBy_append, toldTo_append, hasked p, htold p, List.append_nil, List.append_nil,
      hregistry]
    exact h.talked p
  · rcases List.mem_append.1 he with he | he
    · exact h.returned p t k r he
    · exact hreturned p t k r he

theorem Faithful.connect {s : Session} {log : List Event} (h : Faithful s log)
    (addr : SocketAddr) :
    Faithful (s.step (.connect addr)).1 (log ++ (s.step (.connect addr)).2) := by
  have hinv := h.invariant.connect addr
  dsimp only [Session.step, react] at hinv ⊢
  have hstep := step_connection s.registry .ascending s.registry.nextToken addr
  generalize RegistryServer.step Serde.direct s.registry
    (.connection (Env.calm .ascending) s.registry.nextToken addr) = r' at hstep hinv ⊢
  change Faithful _ (log ++ sends (r'.2.flatMap RegistryServer.Served.written))
  refine ⟨hinv, fun p => ?_, fun p t k r he => ?_⟩
  · have hspoken := h.talked p
    rw [askedBy_append, toldTo_append, askedBy_sends, toldTo_sends, List.append_nil,
      setClient_registry]
    split at hstep
    · -- the socket of a primary registry
      rw [hstep.1, hstep.2, show sentTo p [] = [] from rfl, List.append_nil]
      exact hspoken.stays Iff.rfl rfl
    · rename_i hfirst
      have htoken : s.registry.nextToken = s.registry.idCounter + 1 := if_neg hfirst
      rw [hstep.1, hstep.2, htoken]
      by_cases hp : p = s.registry.idCounter + 1
      -- the new client has been told nothing before
      · subst hp
        have hnew : ¬ IsToken s.registry (s.registry.idCounter + 1) := fun hno =>
          absurd hno.2 (Nat.not_succ_le_self _)
        obtain ⟨htold, hasked⟩ := hspoken.silent hnew
        rw [htold, hasked]
        refine ⟨fun hno => absurd ⟨Nat.le_add_left _ _, Nat.le_refl _⟩ hno, fun _ => ?_⟩
        refine ⟨[], by simp [sentTo], none, .nothing, ?_⟩
        exact h.invariant.regular.waits_stranger hnew
      -- any other client is told nothing now
      · have hnothing : sentTo p [(s.registry.idCounter + 1,
            Message.registry (.connection (s.registry.idCounter + 1)))] = [] := by
          simp [sentTo, Ne.symm hp]
        rw [hnothing, List.append_nil]
        refine hspoken.stays ⟨fun hq => ⟨hq.1, ?_⟩, fun hq => ⟨hq.1, Nat.le_succ_of_le hq.2⟩⟩ rfl
        exact Nat.le_of_lt_succ (Nat.lt_of_le_of_ne hq.2 hp)
  · rcases List.mem_append.1 he with he | he
    · exact h.returned p t k r he
    · simp [sends] at he

theorem Faithful.serve {s : Session} {log : List Event} (h : Faithful s log) (p : ProcId)
    (iter : SetIter ProcId) :
    Faithful (s.step (.serve p iter)).1 (log ++ (s.step (.serve p iter)).2) := by
  have hinv := h.invariant.serve p iter
  -- most often there is nothing to read
  have hstill : Faithful s (log ++ []) := by
    rw [List.append_nil]
    exact h
  dsimp only [Session.step] at hinv ⊢
  cases hc : s.clients p with
  | none => exact hstill
  | some c =>
      rw [hc] at hinv
      dsimp only at hinv ⊢
      cases houtbox : c.outbox with
      | nil => exact hstill
      | cons message outbox =>
          rw [houtbox] at hinv
          dsimp only at hinv ⊢
          by_cases hbackup : p = s.registry.backupToken
          · rw [if_pos hbackup]
            exact hstill
          rw [if_neg hbackup] at hinv ⊢
          obtain ⟨t, k, result, messages, o', rfl, rfl, -, -, he, hserves⟩ :=
            h.invariant.reads hc houtbox hbackup iter
          dsimp only [react] at hinv ⊢
          rw [setClient_registry] at hinv ⊢
          generalize RegistryServer.step Serde.direct s.registry
            (.readable (Env.calm iter) p (.data (.registry (.request p t k)))) = r'
            at hserves hinv ⊢
          change Faithful _ (log ++
            ([.asked p (.registry (.request p t k))] ++ sends (r'.2.flatMap _)))
          have htoken : ∀ q, IsToken r'.1 q ↔ IsToken s.registry q := fun q => by
            unfold IsToken
            rw [hserves.tokens]
          refine ⟨hinv, fun q => ?_, fun q t' k' r hr => ?_⟩
          · have hspoken := h.talked q
            obtain ⟨responses, hsent, hgrants⟩ := hserves.sent q
            rw [askedBy_append, askedBy_append, toldTo_append, toldTo_append, askedBy_sends,
              toldTo_sends, hsent]
            by_cases hq : q = p
            · -- the client that is answered is granted nothing besides
              subst hq
              obtain ⟨hnone, hanswers⟩ := hserves.answers he
              rw [hnone] at hgrants
              obtain rfl := List.forall₂_nil_left_iff.1 hgrants
              have hnext := hspoken.answers (h.invariant.tokens q c hc) (htoken q) he hanswers
              simpa [askedBy, toldTo] using hnext
            · have hnext := hspoken.observes (htoken q)
                (fun hno => h.invariant.regular.waits_stranger hno) (hserves.observes hq hgrants)
              simpa [askedBy, toldTo, Ne.symm hq, hq] using hnext
          · rcases List.mem_append.1 hr with hr | hr
            · exact h.returned q t' k' r hr
            · simp [sends] at hr

theorem Faithful.step {s : Session} {log : List Event} (h : Faithful s log) (i : Input) :
    Faithful (s.step i).1 (log ++ (s.step i).2) := by
  have hinv := h.invariant.step i
  have hstill : Faithful s (log ++ []) := by
    rw [List.append_nil]
    exact h
  cases i with
  | connect addr => exact h.connect addr
  | serve p iter => exact h.serve p iter
  | call p t k =>
      dsimp only [Session.step] at hinv ⊢
      cases hc : s.clients p with
      | none => exact hstill
      | some c =>
          rw [hc] at hinv
          dsimp only at hinv ⊢
          by_cases hidle : c.running.isNone
          · rw [if_pos hidle] at hinv ⊢
            exact h.quiet hinv rfl (fun _ => rfl) (fun _ => rfl) (by simp)
          · rw [if_neg hidle]
            exact hstill
  | proceed p =>
      dsimp only [Session.step] at hinv ⊢
      cases hc : s.clients p with
      | none => exact hstill
      | some c =>
          rw [hc] at hinv
          dsimp only at hinv ⊢
          rcases ((h.invariant.clients p c hc).proceed).2 with hnone | ⟨t, k, response, hfinal, hret⟩
          · rw [hnone]
            exact h.quiet hinv rfl (fun _ => rfl) (fun _ => rfl) (by simp)
          · rw [hret]
            refine h.quiet hinv rfl (fun _ => rfl) (fun _ => rfl) ?_
            intro q t' k' r he
            cases List.mem_singleton.1 he
            exact ⟨response, hfinal, rfl⟩

theorem run_faithful (secondaryServer : Option (SocketAddr × TcpStream)) (inputs : List Input) :
    Faithful ((machine secondaryServer).run inputs).1 ((machine secondaryServer).run inputs).2 := by
  refine IOMachine.run_induction Faithful ⟨run_invariant secondaryServer [], fun p => ?_, ?_⟩
    (fun s log i h => h.step i) inputs
  · refine ⟨fun _ => ⟨rfl, rfl⟩, fun hp => ?_⟩
    exact absurd (Nat.le_trans hp.1 hp.2) (Nat.not_succ_le_zero 0)
  · intro p t k r he
    cases he

/-- **Session fidelity.** What the registry sends to a client is its greeting and then, request
by request, one response that settles it, or one `Wait` and later the grant; the grant is missing
only as long as the request is in the queue of its key, and nothing else of the client is in any
queue. No call returns `UnexpectedResponse` or `WaitError`. -/
theorem session_fidelity (secondaryServer : Option (SocketAddr × TcpStream))
    (inputs : List Input) :
    let r := (machine secondaryServer).run inputs
    (∀ p c, r.1.clients p = some c → ∃ answers pending,
      toldTo p r.2 = .registry (.connection p) :: answers ∧
      Dialogue p (askedBy p r.2) answers pending ∧
      ∀ k, waits r.1.registry p k = queuedFor pending k) ∧
    ∀ p t k result, .returned p t k result ∈ r.2 →
      result ≠ .error .unexpectedResponse ∧ ∀ k', result ≠ .error (.waitError k') := by
  have hrun := run_faithful secondaryServer inputs
  refine ⟨fun p c hc => ?_, fun p t k result he => ?_⟩
  · obtain ⟨answers, htold, pending, hdialogue, hqueued⟩ :=
      (hrun.talked p).greeted (hrun.invariant.tokens p c hc)
    exact ⟨answers, pending, htold, hdialogue, hqueued⟩
  · obtain ⟨response, hfinal, rfl⟩ := hrun.returned p t k result he
    exact hfinal.expected

end Session

end Soros
