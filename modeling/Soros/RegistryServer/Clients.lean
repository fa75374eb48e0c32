import Soros.RegistryServer.Spec

set_option autoImplicit false

/-! # Connections and locks

The server forgets a client whose connection ends, but the access manager does not: nothing
releases the keys of a client that has left or takes its requests out of the queues. What is
true is that nobody gets into the lock state without a connection (`involved_connected`). -/

namespace Soros

open RwLock

namespace AccessManager

/-- `p` holds the key `k` or waits for it. -/
def Involved (m : AccessManager) (k : KeyId) (p : ProcId) : Prop :=
  ∃ ks, m.keyStates k = some ks ∧ ks.Involves p

/-- The process that makes the call. -/
def Call.caller : Call → Option ProcId
  | .create p _ | .read p _ | .write p _ | .release p _ => some p
  | .delete _ => none

theorem KeyMove.involves {k : KeyId} {o o' : Option KeyState} {evs : List Event} {q : ProcId}
    (h : KeyMove k o evs o') (hq : ∃ ks, o' = some ks ∧ ks.Involves q) :
    (∃ ks, o = some ks ∧ ks.Involves q) ∨ ∃ t, .requested q k t ∈ evs := by
  obtain ⟨ks, hks, hq⟩ := hq
  cases h with
  | stay => exact Or.inl ⟨ks, hks, hq⟩
  | create p =>
      cases hks
      rcases hq with (hq | hq) | hq
      · cases hq
      · simp [KeyState.new] at hq
      · simp [KeyState.new] at hq
  | delete => cases hks
  | enter l c p m | wait l c p m =>
      cases hks
      rw [KeyState.involves_ofLock] at hq
      rcases FairLock.ask_involves hq with hold | rfl
      · exact Or.inl ⟨_, rfl, (KeyState.involves_ofLock _ _ _).2 hold⟩
      · exact Or.inr ⟨requestOf m, by simp⟩
  | leave l c p =>
      cases hks
      rw [KeyState.involves_ofLock] at hq
      exact Or.inl ⟨_, rfl, (KeyState.involves_ofLock _ _ _).2 (FairLock.leave_involves hq)⟩

/-- A request is recorded for the process that makes the call. -/
theorem caller_of_requested {m : AccessManager} {iter : SetIter ProcId} {c : Call} {q : ProcId}
    {k : KeyId} {t : RequestType} (h : .requested q k t ∈ (m.step (.call iter c)).2) :
    c.caller = some q := by
  rcases List.mem_append.1 h with h | h
  · rcases List.mem_append.1 h with h | h
    · unfold Call.asked at h
      split at h <;> simp at h <;> simp [Call.caller, h.1]
    · unfold Call.completed at h
      split at h <;> simp at h
  · obtain ⟨a, -, ha⟩ := List.mem_map.1 h
    cases ha

/-- Only its own call gets a process into the lock state. -/
theorem call_involved {m : AccessManager} (hv : m.Valid) {iter : SetIter ProcId} {c : Call}
    {k : KeyId} {q : ProcId} (h : (m.step (.call iter c)).1.Involved k q) :
    m.Involved k q ∨ c.caller = some q := by
  rcases (step_onKey hv (.call iter c) k).involves h with hold | ⟨t, ht⟩
  · exact Or.inl hold
  · exact Or.inr (caller_of_requested (List.mem_of_mem_filter ht))

end AccessManager

namespace RegistryServer

open AccessManager (Call)

variable {Bytes : Type} (serde : Serde Bytes)

/-- A request of `p` has arrived on the connection `token`. -/
def Asked (inputs : List (Input Bytes)) (token : Token) (p : ProcId) : Prop :=
  ∃ env data t k, .readable env token (.data data) ∈ inputs ∧
    requestIn serde data = some (p, t, k)

/-- The connection `token` has been seen to end. -/
def Left (inputs : List (Input Bytes)) (token : Token) : Prop :=
  ∃ env read, .readable env token read ∈ inputs ∧ read.Ends

/-- Each client's requests carry the process id it was given, which is its token. Only the
primary registry passes on the requests of others. -/
def OwnIds (inputs : List (Input Bytes)) : Prop :=
  ∀ token p, Asked serde inputs token p → token ≠ 1000 → p = token

theorem Asked.mono {inputs inputs' : List (Input Bytes)} {token : Token} {p : ProcId}
    (h : Asked serde inputs token p) (hsub : inputs ⊆ inputs') : Asked serde inputs' token p := by
  obtain ⟨env, data, t, k, hmem, hreq⟩ := h
  exact ⟨env, data, t, k, hsub hmem, hreq⟩

theorem Left.mono {inputs inputs' : List (Input Bytes)} {token : Token}
    (h : Left inputs token) (hsub : inputs ⊆ inputs') : Left inputs' token := by
  obtain ⟨env, read, hmem, hends⟩ := h
  exact ⟨env, read, hsub hmem, hends⟩

/-- Whoever holds a key or waits for one has a connection, unless it has ended; or its request
was passed on by the primary registry. -/
def Accounted (inputs : List (Input Bytes)) (s : RegistryServer) : Prop :=
  ∀ k p, s.accessManager.Involved k p →
    (s.tokenStreamMap p).isSome ∨ Left inputs p ∨ Asked serde inputs 1000 p

theorem callOf_caller {p q : ProcId} {t : RequestType} {k : KeyId}
    (h : (callOf p t k).caller = some q) : q = p := by
  cases t <;> cases h <;> rfl

theorem involved_congr {m m' : AccessManager} (h : m.keyStates = m'.keyStates) (k : KeyId)
    (p : ProcId) : m.Involved k p ↔ m'.Involved k p := by
  unfold AccessManager.Involved
  rw [h]

/-- A connection accepted, even in the place of an older one, cuts nobody off. -/
theorem Accounted.accept {inputs : List (Input Bytes)} {s s' : RegistryServer}
    {stream : TcpStream} {addr : SocketAddr} (h : Accounted serde inputs s)
    (haccepted : Accepted s stream addr s') : Accounted serde inputs s' := by
  intro k p hp
  rw [involved_congr (congrArg AccessManager.keyStates haccepted.manager)] at hp
  refine (h k p hp).imp_left fun hconnected => ?_
  rcases haccepted.stream_cases p with ⟨-, hnew⟩ | hold
  · rw [hnew]
    rfl
  · rwa [hold]

theorem Accounted.read {inputs : List (Input Bytes)} {s s' : RegistryServer} {env : Env}
    {token : Token} {read : ReadResult Bytes} (hv : s.accessManager.Valid)
    (hown : OwnIds serde (inputs ++ [.readable env token read])) (h : Accounted serde inputs s)
    (hreadable : Readable serde env s token read s') :
    Accounted serde (inputs ++ [.readable env token read]) s' := by
  have hkeep : Accounted serde (inputs ++ [.readable env token read]) s := fun k p hp =>
    (h k p hp).imp_right fun hrest =>
      hrest.imp (·.mono (List.subset_append_left _ _)) (·.mono serde (List.subset_append_left _ _))
  cases hreadable with
  | idle => exact hkeep
  -- only the client that is read loses its connection, and the run shows its end
  | gone read hends =>
      intro k p hp
      by_cases hpt : p = token
      · subst hpt
        exact Or.inr (Or.inl ⟨env, read, by simp, hends⟩)
      · have hold := hkeep k p hp
        rw [← Function.update_of_ne (f := s.tokenStreamMap) hpt none] at hold
        exact hold
  | request data s' hstream _ hs' hmanager =>
      intro k p hp
      have hkeys : s'.accessManager.keyStates
          = (lockEffect serde env data s.accessManager).keyStates := keyStates_drained hmanager
      rw [involved_congr hkeys] at hp
      have hmap : s'.tokenStreamMap = s.tokenStreamMap := by rw [hs']
      rw [hmap]
      unfold lockEffect at hp
      cases hreq : requestIn serde data with
      | none =>
          rw [hreq] at hp
          exact hkeep k p hp
      | some r =>
          obtain ⟨q, t, k'⟩ := r
          rw [hreq] at hp
          have hasked : Asked serde (inputs ++ [.readable env token (.data data)]) token q :=
            ⟨env, data, t, k', by simp, hreq⟩
          have hcall : (s.accessManager.step (.call env.iter (callOf q t k'))).1.Involved k p := hp
          rcases AccessManager.call_involved hv hcall with hold | hcaller
          · exact hkeep k p hold
          · -- the request is new, and its sender is connected or the primary registry
            obtain rfl := callOf_caller hcaller
            by_cases hprimary : token = 1000
            · exact Or.inr (Or.inr (hprimary ▸ hasked))
            · have hp := hown token p hasked hprimary
              rw [hp]
              exact Or.inl (Option.isSome_iff_ne_none.2 hstream)

theorem OwnIds.left {inputs inputs' : List (Input Bytes)} (h : OwnIds serde (inputs ++ inputs')) :
    OwnIds serde inputs := fun token p hasked =>
  h token p (hasked.mono serde (List.subset_append_left _ _))

theorem run_accounted (secondaryServer : Option (SocketAddr × TcpStream))
    (inputs : List (Input Bytes)) (hown : OwnIds serde inputs) :
    Accounted serde inputs ((machine serde secondaryServer).run inputs).1 := by
  induction inputs using List.reverseRecOn with
  | nil =>
      rintro k p ⟨ks, hks, -⟩
      cases hks
  | append_singleton inputs i ih =>
      have hstart := ih hown.left
      obtain ⟨calls, hcalls⟩ := run_manager serde secondaryServer inputs
      rw [IOMachine.run_concat]
      cases i with
      | connection env stream addr =>
          have hstep := hstart.accept serde (step_accepted serde env _ stream addr)
          exact fun k p hp => (hstep k p hp).imp_right fun hrest =>
            hrest.imp (·.mono (List.subset_append_left _ _))
              (·.mono serde (List.subset_append_left _ _))
      | readable env token read =>
          exact hstart.read serde (hcalls ▸ AccessManager.run_valid calls) hown
            (step_readable serde env _ token read)

/-- The end of a connection removes the connection and leaves the locks as they are. -/
theorem step_ends (s : RegistryServer) (env : Env) (token : Token) {read : ReadResult Bytes}
    (hends : read.Ends) :
    (step serde s (.readable env token read)).1.accessManager = s.accessManager ∧
    (token ≠ s.backupToken →
      (step serde s (.readable env token read)).1.tokenStreamMap token = none) := by
  have hreadable := step_readable serde env s token read
  generalize (step serde s (.readable env token read)).1 = s' at hreadable ⊢
  cases hreadable with
  | idle _ hidle =>
      refine ⟨rfl, fun hbackup => ?_⟩
      rcases hidle with hidle | hidle | ⟨e, rfl, he⟩
      · exact absurd hidle hbackup
      · exact hidle
      · exact absurd hends he
  | gone => exact ⟨rfl, fun _ => Function.update_self _ _ _⟩
  | request => exact hends.elim

/-- **Nobody gets at the locks without a connection.** In every run in which clients use the
process id they were given, whoever holds a key or waits for one is still connected unless its
connection has ended, or else was named in a request passed on by the primary registry. The
end of a connection, at any point, removes the connection and leaves the locks as they are. -/
theorem involved_connected (secondaryServer : Option (SocketAddr × TcpStream))
    (inputs : List (Input Bytes)) (hown : OwnIds serde inputs) :
    let s := ((machine serde secondaryServer).run inputs).1
    Accounted serde inputs s ∧
    ∀ env token read, read.Ends →
      (step serde s (.readable env token read)).1.accessManager = s.accessManager ∧
      (token ≠ s.backupToken →
        (step serde s (.readable env token read)).1.tokenStreamMap token = none) :=
  ⟨run_accounted serde secondaryServer inputs hown,
    fun env token _ hends => step_ends serde _ env token hends⟩

/-- The client `1` of a registry without backup, whose first connection counts as that of a
primary registry, creates a key, asks to write it, gets it and leaves. -/
def abandonedKey : List (Input Message) :=
  [.connection (Env.calm .ascending) 10 ⟨"127.0.0.1", 4000⟩,
    .connection (Env.calm .ascending) 11 ⟨"127.0.0.1", 4001⟩,
    .readable (Env.calm .ascending) 1 (.data (.registry (.request 1 .create 0))),
    .readable (Env.calm .ascending) 1 (.data (.registry (.request 1 .write 0))),
    .readable (Env.calm .ascending) 1 .eof]

theorem abandonedKey_ownIds : OwnIds Serde.direct abandonedKey := by
  rintro token p ⟨env, data, t, k, hmem, hreq⟩ -
  simp only [abandonedKey, List.mem_cons, List.not_mem_nil, or_false, reduceCtorEq, false_or,
    Input.readable.injEq, ReadResult.data.injEq] at hmem
  rcases hmem with ⟨-, rfl, rfl⟩ | ⟨-, rfl, rfl⟩ | ⟨-, -, hdata⟩
  · cases hreq; rfl
  · cases hreq; rfl
  · cases hdata

/-- Every process that holds a key or waits for one is connected. -/
def InvolvedConnected (s : RegistryServer) : Prop :=
  ∀ k p, s.accessManager.Involved k p → (s.tokenStreamMap p).isSome

/-- The key stays with the client that has left. -/
theorem abandonedKey_blocked :
    ¬ ∀ inputs, OwnIds Serde.direct inputs →
      InvolvedConnected ((machine Serde.direct none).run inputs).1 := by
  intro h
  have hconn := h abandonedKey abandonedKey_ownIds 0 1 ⟨⟨[], ∅, some 1, 1⟩, by decide, Or.inl (Or.inl rfl)⟩
  exact absurd hconn (by decide)

/-- The run of `abandonedKey`, in which the writer has left. -/
theorem involved_connected_abandonedKey :
    Accounted Serde.direct abandonedKey ((machine Serde.direct none).run abandonedKey).1 :=
  (involved_connected Serde.direct none abandonedKey abandonedKey_ownIds).1

end RegistryServer

end Soros
