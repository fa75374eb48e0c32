import Soros.Cluster.Basic

set_option autoImplicit false

/-! # Grants across a switch

Each registry numbers its connections by itself, and a client that has switched goes on naming
the number that the primary registry gave it. A request of it that has to wait is then queued
under somebody else's number, and the grant goes there (`switched_misdelivered`). As long as the
steps of both registries are `Steady`, every grant goes where its request came from
(`grants_delivered`). -/

namespace Soros

open RegistryServer (Tracked Delivery Steady callOf)

namespace Cluster

/-- **Grants reach the connection that asked**: in every step of a server, each request that it
grants after it has waited is answered on the connection over which it arrived, and no other
grant is written but the answer to the client that is served. -/
def GrantsDelivered (log : List Event) : Prop :=
  ∀ side d, .served side d ∈ log → d.Delivered

/-- The server that takes a step takes a steady one. -/
def SteadyStep (s : Cluster) (input : Input) : Prop :=
  ∀ s' side i copy, s.reaction input = some (s', side, i, copy) →
    Steady (s'.servers side).server i

/-! ## A client that switches -/

/-- A client starts and connects to the primary server, unless that fails with `failure`; `side`
accepts it. -/
def joinInputs (a : Nat) (failure : Option IoError) (side : Side) (addr : SocketAddr) : List Input :=
  [.join a, .proceed a failure] ++ (if failure.isSome then [.proceed a none] else []) ++
  [.accept side (Env.calm .ascending) addr, .proceed a none, .proceed a none, .proceed a none]

/-- A call that the secondary server handles at once. -/
def callInputs (a : Nat) (token : Token) (invocation : Invocation) : List Input :=
  [.call a invocation, .proceed a none, .read .secondary token (Env.calm .ascending),
    .proceed a none, .proceed a none]

/-- One client uses the primary server; the other does not reach it and writes a key of the
secondary one. -/
def apartInputs : List Input :=
  [.accept .secondary (Env.calm .ascending) ⟨"127.0.0.1", 8888⟩] ++
  joinInputs 0 none .primary ⟨"127.0.0.1", 4001⟩ ++
  joinInputs 1 (some ⟨.timedOut, "Connection timed out (os error 110)"⟩) .secondary
    ⟨"127.0.0.1", 4002⟩ ++
  callInputs 1 1 (.create 0) ++ callInputs 1 1 (.writeSync 0)

/-- The first client asks for the key, and its write fails: it switches and waits. Then the
second releases the key. -/
def switchInputs : List Input :=
  apartInputs ++
  [.call 0 (.writeSync 0), .proceed 0 (some ⟨.other, "Broken pipe (os error 32)"⟩),
    .proceed 0 none, .accept .secondary (Env.calm .ascending) ⟨"127.0.0.1", 4003⟩,
    .proceed 0 none, .proceed 0 none, .proceed 0 none, .proceed 0 none,
    .read .secondary 2 (Env.calm .ascending), .proceed 0 none] ++
  [.call 1 (.release 0), .proceed 1 none, .read .secondary 1 (Env.calm .ascending)]

/-- The second client is told of the grant to the first. -/
theorem switched_misdelivered :
    ¬ ∀ (backupAddr : SocketAddr) (inputs : List Input),
      GrantsDelivered ((machine backupAddr).run inputs).2 := by
  intro h
  have hall := h ⟨"127.0.0.1", 8889⟩ switchInputs
  have hbad : ((machine ⟨"127.0.0.1", 8889⟩).run switchInputs).2.any (fun
      | .served _ d => !decide d.Delivered
      | _ => false) = true := by decide
  obtain ⟨e, he, hno⟩ := List.any_eq_true.1 hbad
  cases e with
  | served side d => simp [hall side d he] at hno
  | wrote | handled => cases hno

/-! ## Steady runs -/

/-- No operation of a client is a step of a server. -/
theorem proceed_servers (s : Cluster) (a : Nat) (peer : Peer) (failure : Option IoError) :
    (s.proceed a peer failure).1.servers = s.servers ∧
    ∀ side d, .served side d ∉ (s.proceed a peer failure).2 := by
  rcases proceed_performs s a peer failure with heq | ⟨_, _, _, s', events, _, hp, heq⟩
  · rw [heq]
    exact ⟨rfl, by simp⟩
  · rw [heq]
    exact hp.unserved

/-- The queues of both servers fit the connections, and every grant has been delivered. -/
structure Orderly (s : Cluster) (log : List Event) : Prop where
  aligned : ∀ side, (s.servers side).Aligned
  delivered : GrantsDelivered log

/-- A step that is no step of a server. -/
theorem Orderly.client {s s' : Cluster} {log events : List Event} (h : Orderly s log)
    (hservers : s'.servers = s.servers) (hevents : ∀ side d, .served side d ∉ events) :
    Orderly s' (log ++ events) := by
  refine ⟨fun side => hservers ▸ h.aligned side, fun side d he => ?_⟩
  rcases List.mem_append.1 he with he | he
  · exact h.delivered side d he
  · exact absurd he (hevents side d)

/-- A step of a server. -/
theorem Orderly.react {s s' : Cluster} {log : List Event} (h : Orderly s log)
    (hservers : s'.servers = s.servers) {side : Side} {i : RegistryServer.Input Message}
    (hsteady : Steady (s'.servers side).server i) (copy : Option Copy) {handled : List Event}
    (hhandled : ∀ side d, .served side d ∉ handled) :
    Orderly (s'.react side i copy).1
      (log ++ .served side (s'.react side i copy).2 :: handled) := by
  have haligned : ∀ side, (s'.servers side).Aligned := fun side => hservers ▸ h.aligned side
  obtain ⟨hnext, hdelivered⟩ := (haligned side).step hsteady
  refine ⟨fun side' => ?_, fun side' d he => ?_⟩
  · show (Function.update s'.servers side _ side').Aligned
    by_cases hside : side' = side
    · subst hside
      rw [Function.update_self]
      exact hnext
    · rw [Function.update_of_ne hside]
      exact haligned side'
  · rcases List.mem_append.1 he with he | he
    · exact h.delivered side' d he
    · rcases List.mem_cons.1 he with heq | he
      · cases heq
        exact hdelivered
      · exact absurd he (hhandled side' d)

theorem Orderly.serve {s : Cluster} {log : List Event} (h : Orderly s log) {input : Input}
    (hsteady : SteadyStep s input) :
    Orderly (s.serve input).1 (log ++ (s.serve input).2) := by
  unfold Cluster.serve
  cases hreaction : s.reaction input with
  | none => exact h.client rfl (by simp)
  | some r =>
      obtain ⟨s', side, i, copy⟩ := r
      refine h.react (reaction_takes hreaction).servers (hsteady _ _ _ _ hreaction) copy ?_
      intro side' d he
      unfold handled at he
      split at he <;> simp at he

theorem Orderly.step {s : Cluster} {log : List Event} (h : Orderly s log) {input : Input}
    (hsteady : SteadyStep s input) :
    Orderly (s.step input).1 (log ++ (s.step input).2) := by
  have hstay : Orderly s (log ++ []) := h.client rfl (by simp)
  cases input with
  | join a =>
      dsimp only [Cluster.step]
      cases s.peers a with
      | none => exact h.client rfl (by simp)
      | some peer => exact hstay
  | call a invocation =>
      dsimp only [Cluster.step]
      split
      · exact h.client rfl (by simp)
      · exact hstay
  | proceed a failure =>
      dsimp only [Cluster.step]
      cases s.peers a with
      | none => exact hstay
      | some peer =>
          obtain ⟨hservers, hevents⟩ := proceed_servers s a peer failure
          exact h.client hservers hevents
  | accept | read | hangup => exact h.serve hsteady

/-- **Grants reach the client that asked**, in every run in which the servers take steady steps
only. -/
theorem grants_delivered (backupAddr : SocketAddr) (inputs : List Input)
    (hsteady : (machine backupAddr).Along SteadyStep (machine backupAddr).start inputs) :
    GrantsDelivered ((machine backupAddr).run inputs).2 := by
  refine (IOMachine.run_induction_along Orderly ⟨fun side => ?_, by rintro side d ⟨⟩⟩ ?_ inputs
    hsteady).delivered
  · cases side <;> exact ⟨AccessManager.valid_new, rfl, fun _ => .nil⟩
  · intro s log input hinput h
    exact h.step hinput

/-! ## A run with a switch -/

/-- Nobody waits at either server. -/
def Quiet (s : Cluster) : Prop := ∀ side k, Tracked.queue (s.servers side).server k = []

/-- A client is not a server. -/
theorem steadyStep_other {s : Cluster} {input : Input} (h : s.reaction input = none) :
    SteadyStep s input := by
  intro s' side i copy hreaction
  rw [h] at hreaction
  cases hreaction

/-- A server that reads no message lets nobody wait. -/
theorem Quiet.react {s s' : Cluster} (h : Quiet s) (hservers : s'.servers = s.servers) (side : Side)
    {i : RegistryServer.Input Message} (hi : ∀ env token data, i ≠ .readable env token (.data data))
    (copy : Option Copy) : Quiet (s'.react side i copy).1 := by
  have hmanager : ((s'.servers side).step id i).1.server.accessManager
      = (s'.servers side).server.accessManager := by
    cases i with
    | connection env socket addr =>
        exact (RegistryServer.step_accepted Serde.direct env _ socket addr).manager
    | readable env token read =>
        have hreadable := RegistryServer.step_readable Serde.direct env (s'.servers side).server token
          read
        cases read with
        | data data => exact absurd rfl (hi env token data)
        | eof | failed => exact hreadable.quiet (Or.inl (by simp))
  intro side' k
  rw [hservers] at hmanager
  show Tracked.queue (Function.update s'.servers side _ side').server k = []
  rw [hservers]
  by_cases hside : side' = side
  · rw [hside, Function.update_self, Tracked.queue, hmanager]
    exact h side k
  · rw [Function.update_of_ne hside]
    exact h side' k

/-- As long as no server reads a message every step is steady. -/
theorem Quiet.step {s : Cluster} (h : Quiet s) {input : Input}
    (hinput : ∀ side token env, input ≠ .read side token env) :
    SteadyStep s input ∧ Quiet (s.step input).1 := by
  have hserve : (∀ s' side i copy, s.reaction input = some (s', side, i, copy) →
      ∀ env token data, i ≠ .readable env token (.data data)) → Quiet (s.serve input).1 := by
    intro hno
    unfold Cluster.serve
    cases hreaction : s.reaction input with
    | none => exact h
    | some r =>
        exact h.react (reaction_takes hreaction).servers _ (hno _ _ _ _ hreaction) _
  cases input with
  | join a =>
      refine ⟨steadyStep_other rfl, ?_⟩
      dsimp only [Cluster.step]
      cases s.peers a <;> exact h
  | call a invocation =>
      refine ⟨steadyStep_other rfl, ?_⟩
      dsimp only [Cluster.step]
      split <;> exact h
  | proceed a failure =>
      refine ⟨steadyStep_other rfl, ?_⟩
      dsimp only [Cluster.step]
      cases s.peers a with
      | none => exact h
      | some peer =>
          intro side k
          rw [(proceed_servers s a peer failure).1]
          exact h side k
  | read side token env => exact absurd rfl (hinput side token env)
  | accept side env addr =>
      refine ⟨fun s' side' i copy hreaction => ?_, hserve fun s' side' i copy hreaction => ?_⟩
      · dsimp only [reaction] at hreaction
        split at hreaction
        · cases hreaction
          intro k
          show _ ∉ (Tracked.queue (s.servers side).server k).map Prod.fst
          rw [h side k]
          simp
        · cases hreaction
      · dsimp only [reaction] at hreaction
        split at hreaction <;> cases hreaction
        simp
  | hangup side token env failure =>
      refine ⟨fun s' side' i copy hreaction => ?_, hserve fun s' side' i copy hreaction => ?_⟩
      · dsimp only [reaction] at hreaction
        split at hreaction <;> cases hreaction
        cases failure <;> trivial
      · dsimp only [reaction] at hreaction
        split at hreaction <;> cases hreaction
        cases failure <;> simp

theorem Quiet.along (backupAddr : SocketAddr) {s : Cluster} (h : Quiet s) (inputs : List Input)
    (hinputs : ∀ input ∈ inputs, ∀ side token env, input ≠ .read side token env) :
    (machine backupAddr).Along SteadyStep s inputs := by
  induction inputs generalizing s with
  | nil => trivial
  | cons input inputs ih =>
      obtain ⟨hsteady, hnext⟩ := h.step (hinputs input List.mem_cons_self)
      exact ⟨hsteady, ih hnext fun i hi => hinputs i (List.mem_cons_of_mem input hi)⟩

/-- The server reads a request that names its own connection, and can tell those that it lets
in. -/
def Addressed (s : Cluster) (input : Input) : Bool :=
  match s.reaction input with
  | some (s', side, .readable env token (.data (.registry (.request p t k))), _) =>
      p == token && (((callOf p t k).invoke env.iter).run
        (s'.servers side).server.accessManager).2.accessGranted.buffer.all fun a =>
          ((s'.servers side).server.tokenStreamMap a.1).isSome &&
            (RegistryServer.grantAnswer (s'.servers side).server a).isSome
  | _ => false

theorem steadyStep_read {s : Cluster} {side : Side} {token : Token}
    (h : s.Addressed (.read side token (Env.calm .ascending)) = true) :
    SteadyStep s (.read side token (Env.calm .ascending)) := by
  intro s' side' i copy hreaction
  obtain ⟨message, rfl⟩ : ∃ message, i = .readable (Env.calm .ascending) token (.data message) := by
    dsimp only [reaction] at hreaction
    split at hreaction
    · split at hreaction
      · cases hreaction
      · obtain ⟨r, -, heq⟩ := Option.map_eq_some_iff.1 hreaction
        cases heq
        exact ⟨_, rfl⟩
    · cases hreaction
  intro p t k hreq
  obtain rfl : message = .registry (.request p t k) := by
    cases message with
    | data => cases hreq
    | registry message => cases message <;> cases hreq; rfl
  unfold Addressed at h
  rw [hreaction] at h
  obtain ⟨hown, hgrants⟩ := (Bool.and_eq_true _ _).mp h
  refine ⟨fun _ => beq_iff_eq.1 hown, fun a ha => ?_⟩
  have hthis := (Bool.and_eq_true _ _).mp (List.all_eq_true.1 hgrants a ha)
  exact ⟨fun _ _ _ _ => rfl, hthis.1, hthis.2⟩

/-- Three clients connect. One of them connects to the primary server, after another that has
done so, and then switches. -/
def gatheringInputs : List Input :=
  [.accept .secondary (Env.calm .ascending) ⟨"127.0.0.1", 8888⟩] ++
  joinInputs 2 none .primary ⟨"127.0.0.1", 4004⟩ ++
  joinInputs 0 none .primary ⟨"127.0.0.1", 4001⟩ ++
  joinInputs 1 (some ⟨.timedOut, "Connection timed out (os error 110)"⟩) .secondary
    ⟨"127.0.0.1", 4002⟩ ++
  [.call 0 (.writeSync 0), .proceed 0 (some ⟨.other, "Broken pipe (os error 32)"⟩),
    .proceed 0 none, .accept .secondary (Env.calm .ascending) ⟨"127.0.0.1", 4003⟩]

/-- The client of the secondary server writes a key and releases it. The one that has switched
waits in between, under the number 2 that it has at both servers. -/
def agreeingInputs : List Input :=
  gatheringInputs ++ (callInputs 1 1 (.create 0) ++ callInputs 1 1 (.writeSync 0) ++
  [.proceed 0 none, .proceed 0 none, .proceed 0 none, .proceed 0 none,
    .read .secondary 2 (Env.calm .ascending), .proceed 0 none] ++
  [.call 1 (.release 0), .proceed 1 none, .read .secondary 1 (Env.calm .ascending)])

/-- It gets its grant, on socket 4. -/
theorem grants_delivered_agreeing :
    GrantsDelivered ((machine ⟨"127.0.0.1", 8889⟩).run agreeingInputs).2 ∧
    ((machine ⟨"127.0.0.1", 8889⟩).run agreeingInputs).2.any (fun
      | .served .secondary d => d.granted == [(4, 0, .write)]
      | _ => false) = true := by
  refine ⟨grants_delivered _ _ ?_, by decide +kernel⟩
  have hquiet : Quiet (machine ⟨"127.0.0.1", 8889⟩).start := fun side k => by cases side <;> rfl
  refine (IOMachine.along_append _ _ _ _ _).2 ⟨hquiet.along _ _ ?_, ?_⟩
  · simp [gatheringInputs, joinInputs]
  -- each call of the client of the secondary server is a message, which is read and answered
  iterate 2
    iterate 2 refine ⟨steadyStep_other rfl, ?_⟩
    refine ⟨steadyStep_read (by decide +kernel), ?_⟩
    iterate 2 refine ⟨steadyStep_other rfl, ?_⟩
  iterate 4 refine ⟨steadyStep_other rfl, ?_⟩
  refine ⟨steadyStep_read (by decide +kernel), ?_⟩
  iterate 3 refine ⟨steadyStep_other rfl, ?_⟩
  exact ⟨steadyStep_read (by decide +kernel), trivial⟩

end Cluster

end Soros
