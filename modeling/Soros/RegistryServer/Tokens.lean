import Soros.RegistryServer.Spec

set_option autoImplicit false

/-! # Tokens of connections

Three tokens are fixed: that of the listener, that of the secondary server and that of the
primary one. Clients are numbered on from one, in the same space, and nothing keeps the two
apart: the 999th client gets the token of the secondary server, whether there is one or not
(`crowd_collides`). `Roll` is the registry beside a list of the clients it has taken; as long as
fewer than 999 come, each client has a token of its own and `handle_data` finds its stream under
it (`tokens_separate`). -/

namespace Soros

instance ReadResult.decidableEnds {Bytes : Type} (read : ReadResult Bytes) :
    Decidable read.Ends := by
  cases read <;> unfold ReadResult.Ends <;> infer_instance

namespace RegistryServer

/-- The token of the listener in `bind`. -/
def listener : Token := 0

/-- The stream that `handle_data` looks up; `none` when an `unwrap` fails. -/
def streamOf (self : RegistryServer) (token : Token) : Option TcpStream :=
  if token == self.backupToken then self.backupStream else self.tokenStreamMap token

/-- The next connection is taken for that of the primary server. -/
def AwaitsPrimary (self : RegistryServer) : Prop :=
  self.backupAddr = none ∧ self.firstConnection = true

instance (self : RegistryServer) : Decidable self.AwaitsPrimary := by
  unfold AwaitsPrimary; infer_instance

/-- The connection is taken as a client: it is registered, and sent its token. -/
def TakesClient (self : RegistryServer) (env : Env) (stream : TcpStream) : Prop :=
  ¬ self.AwaitsPrimary ∧ env.register = none ∧ env.clientWrite stream 0 = none

instance (self : RegistryServer) (env : Env) (stream : TcpStream) :
    Decidable (self.TakesClient env stream) := by
  unfold TakesClient; infer_instance

section

variable {Bytes : Type} (serde : Serde Bytes) {s : RegistryServer} {env : Env} {stream : TcpStream}

theorem nextToken_primary (h : s.AwaitsPrimary) : s.nextToken = s.primaryToken := by
  simp [nextToken, h.1, h.2]

theorem nextToken_client (h : ¬ s.AwaitsPrimary) : s.nextToken = s.idCounter + 1 := by
  have hno : ¬ (s.backupAddr.isNone && s.firstConnection) = true := by
    simpa [AwaitsPrimary] using h
  rw [nextToken, if_neg hno]

theorem step_primary (h : s.AwaitsPrimary) (stream : TcpStream) (addr : SocketAddr) :
    (step serde s (.connection env stream addr)).1 = { s with
      firstConnection := false
      tokenStreamMap := if env.register = none then
        Function.update s.tokenStreamMap s.primaryToken (some stream) else s.tokenStreamMap } :=
  (handleConnection_server serde env stream addr s.enter).trans (if_pos h)

theorem step_takesClient (h : s.TakesClient env stream) (addr : SocketAddr) :
    (step serde s (.connection env stream addr)).1 = { s with
      idCounter := s.idCounter + 1
      tokenStreamMap := Function.update s.tokenStreamMap (s.idCounter + 1) (some stream)
      tokenAddrMap := Function.update s.tokenAddrMap (s.idCounter + 1) (some addr) } :=
  (handleConnection_server serde env stream addr s.enter).trans ((if_neg h.1).trans (if_pos h.2))

theorem step_losesClient (h : ¬ s.AwaitsPrimary) (hlost : ¬ s.TakesClient env stream)
    (addr : SocketAddr) :
    (step serde s (.connection env stream addr)).1 = { s with idCounter := s.idCounter + 1 } :=
  (handleConnection_server serde env stream addr s.enter).trans
    ((if_neg h).trans (if_neg fun hno => hlost ⟨h, hno⟩))

end

/-- A registry and its clients. -/
structure Roll where
  server : RegistryServer
  /-- Every client there has been, under the token that it was given. -/
  given : List (Token × TcpStream)
  /-- The clients whose connection has not been seen to end. -/
  connected : List (Token × TcpStream)

/-- A stream has gone into `token_stream_map`, in the place of another if there was one. -/
structure Inserted where
  token : Token
  stream : TcpStream
  replaced : Option TcpStream

namespace Roll

variable {Bytes : Type} (serde : Serde Bytes)

def step (r : Roll) (i : Input Bytes) : Roll × List Inserted :=
  let server := (RegistryServer.step serde r.server i).1
  match i with
  | .connection env stream _ =>
      let token := r.server.nextToken
      let inserted : List Inserted := [⟨token, stream, r.server.tokenStreamMap token⟩]
      if r.server.TakesClient env stream then
        (⟨server, r.given ++ [(token, stream)], r.connected ++ [(token, stream)]⟩, inserted)
      else
        (⟨server, r.given, r.connected⟩,
          if r.server.AwaitsPrimary ∧ env.register = none then inserted else [])
  | .readable _ token read =>
      if read.Ends then
        (⟨server, r.given, r.connected.filter fun c => c.1 != token⟩, [])
      else (⟨server, r.given, r.connected⟩, [])

def machine (secondaryServer : Option (SocketAddr × TcpStream)) :
    IOMachine Roll (Input Bytes) Inserted where
  start := ⟨new secondaryServer, [], []⟩
  step := step serde

/-- Each client has a token of its own, and under it `handle_data` finds its stream. -/
structure Separate (r : Roll) : Prop where
  distinct : (r.given.map Prod.fst).Nodup
  reserved : ∀ c ∈ r.given, c.1 ≠ listener ∧ c.1 ≠ r.server.backupToken ∧
    c.1 ≠ r.server.primaryToken
  own : ∀ c ∈ r.connected, r.server.streamOf c.1 = some c.2

/-- At most 998 connections have come when another client is taken. -/
def Room (r : Roll) : Input Bytes → Prop
  | .connection env stream _ => r.server.TakesClient env stream → r.server.idCounter < 998
  | .readable _ _ _ => True

/-! ## Too many clients -/

/-- A connection of the `n`-th client. -/
def arrival (n : Nat) : Input Message :=
  .connection (Env.calm .ascending) (n + 10) ⟨"127.0.0.1", UInt16.ofNat (n + 4001)⟩

/-- One client after the other. -/
def crowd (n : Nat) : List (Input Message) := (List.range n).map arrival

theorem crowd_succ (n : Nat) : crowd (n + 1) = crowd n ++ [arrival n] := by
  simp [crowd, List.range_succ]

theorem arrival_step {r : Roll} (hbackup : r.server.backupAddr ≠ none) (n : Nat) :
    (r.step Serde.direct (arrival n)).1.server.idCounter = r.server.idCounter + 1 ∧
    (r.step Serde.direct (arrival n)).1.server.backupAddr = r.server.backupAddr ∧
    (r.step Serde.direct (arrival n)).1.server.backupToken = r.server.backupToken ∧
    (r.step Serde.direct (arrival n)).1.given
      = r.given ++ [(r.server.idCounter + 1, n + 10)] := by
  have hawaits : ¬ r.server.AwaitsPrimary := fun h => hbackup h.1
  have htakes : r.server.TakesClient (Env.calm .ascending) (n + 10) := ⟨hawaits, rfl, rfl⟩
  have hserver := step_takesClient Serde.direct htakes
    ⟨"127.0.0.1", UInt16.ofNat (n + 4001)⟩
  simp only [step, arrival, if_pos htakes, hserver, nextToken_client hawaits]
  exact ⟨trivial, trivial, trivial, trivial⟩

theorem crowd_run (server : SocketAddr × TcpStream) (n : Nat) :
    ((machine Serde.direct (some server)).run (crowd n)).1.server.idCounter = n ∧
    ((machine Serde.direct (some server)).run (crowd n)).1.server.backupAddr ≠ none ∧
    ((machine Serde.direct (some server)).run (crowd n)).1.server.backupToken = 999 := by
  induction n with
  | zero => exact ⟨rfl, Option.some_ne_none _, rfl⟩
  | succ n ih =>
      obtain ⟨hcount, haddr, htoken⟩ := ih
      obtain ⟨hcount', haddr', htoken', -⟩ := arrival_step haddr n
      rw [crowd_succ, IOMachine.run_concat]
      exact ⟨hcount'.trans (by rw [hcount]), fun h => haddr (haddr'.symm.trans h),
        htoken'.trans htoken⟩

/-- The clients of a crowd are numbered on from one. -/
theorem crowd_given (server : SocketAddr × TcpStream) (n : Nat) :
    (n + 1, n + 10) ∈ ((machine Serde.direct (some server)).run (crowd (n + 1))).1.given := by
  obtain ⟨hcount, haddr, -⟩ := crowd_run server n
  obtain ⟨-, -, -, hgiven⟩ := arrival_step haddr n
  rw [crowd_succ, IOMachine.run_concat]
  show _ ∈ (Roll.step Serde.direct _ _).1.given
  rw [hgiven, hcount]
  exact List.mem_append_right _ List.mem_cons_self

/-- The 999th client is given the token of the secondary server. -/
theorem crowd_collides :
    ¬ ∀ inputs : List (Input Message),
      Separate ((machine Serde.direct (some (⟨"127.0.0.1", 8889⟩, 7))).run inputs).1 := by
  intro h
  obtain ⟨-, -, htoken⟩ := crowd_run (⟨"127.0.0.1", 8889⟩, 7) (998 + 1)
  have hgiven := crowd_given (⟨"127.0.0.1", 8889⟩, 7) 998
  exact ((h (crowd (998 + 1))).reserved _ hgiven).2.1 htoken.symm

/-! ## A token for each client -/

/-- What holds of the registry and its clients in every state reached. -/
structure Numbered (r : Roll) : Prop where
  backupToken : r.server.backupToken = 999
  primaryToken : r.server.primaryToken = 1000
  distinct : (r.given.map Prod.fst).Nodup
  range : ∀ c ∈ r.given, 0 < c.1 ∧ c.1 ≤ r.server.idCounter ∧ c.1 < 999
  taken : ∀ c ∈ r.connected, c ∈ r.given
  own : ∀ c ∈ r.connected, r.server.tokenStreamMap c.1 = some c.2
  /-- Streams are found under the tokens given out, and under that of the primary server once
  it has come. -/
  domain : ∀ token stream, r.server.tokenStreamMap token = some stream →
    token ≤ r.server.idCounter ∧ token < 999 ∨ token = 1000 ∧ ¬ r.server.AwaitsPrimary

theorem Numbered.separate {r : Roll} (h : Numbered r) : Separate r where
  distinct := h.distinct
  reserved := by
    intro c hc
    obtain ⟨hpos, -, hlt⟩ := h.range c hc
    rw [h.backupToken, h.primaryToken]
    exact ⟨Nat.ne_of_gt hpos, Nat.ne_of_lt hlt, Nat.ne_of_lt (Nat.lt_trans hlt (by decide))⟩
  own := by
    intro c hc
    obtain ⟨-, -, hlt⟩ := h.range c (h.taken c hc)
    have hne : ¬ (c.1 == r.server.backupToken) = true := by
      rw [h.backupToken, beq_iff_eq]
      exact Nat.ne_of_lt hlt
    rw [streamOf, if_neg hne]
    exact h.own c hc

theorem Numbered.start (secondaryServer : Option (SocketAddr × TcpStream)) :
    Numbered ⟨new secondaryServer, [], []⟩ where
  backupToken := rfl
  primaryToken := rfl
  distinct := List.nodup_nil
  range := by simp
  taken := by simp
  own := by simp
  domain := by
    intro token stream hstream
    cases hstream

/-- The primary server connects, or fails to. -/
theorem Numbered.primary {r : Roll} (h : Numbered r)
    {s' : RegistryServer} {stream : TcpStream} {ok : Prop} [Decidable ok]
    (hs' : s' = { r.server with
      firstConnection := false
      tokenStreamMap := if ok then
        Function.update r.server.tokenStreamMap r.server.primaryToken (some stream)
        else r.server.tokenStreamMap }) : Numbered ⟨s', r.given, r.connected⟩ := by
  subst hs'
  have hkept : ∀ token, token ≠ 1000 →
      (if ok then Function.update r.server.tokenStreamMap r.server.primaryToken (some stream)
        else r.server.tokenStreamMap) token = r.server.tokenStreamMap token := by
    intro token hne
    split
    · rw [Function.update_of_ne (h.primaryToken ▸ hne)]
    · rfl
  refine ⟨h.backupToken, h.primaryToken, h.distinct, h.range, h.taken, fun c hc => ?_,
    fun token stream' hstream' => ?_⟩
  · obtain ⟨-, -, hlt⟩ := h.range c (h.taken c hc)
    exact (hkept c.1 (Nat.ne_of_lt (Nat.lt_trans hlt (by decide)))).trans (h.own c hc)
  · by_cases hprimary : token = 1000
    · exact Or.inr ⟨hprimary, fun hno => by cases hno.2⟩
    · rcases h.domain token stream' ((hkept token hprimary).symm.trans hstream') with hold | hold
      · exact Or.inl hold
      · exact absurd hold.1 hprimary

/-- A client gets the next number. -/
theorem Numbered.client {r : Roll} (h : Numbered r) (hroom : r.server.idCounter < 998)
    {s' : RegistryServer} {stream : TcpStream} {addr : SocketAddr}
    (hs' : s' = { r.server with
      idCounter := r.server.idCounter + 1
      tokenStreamMap :=
        Function.update r.server.tokenStreamMap (r.server.idCounter + 1) (some stream)
      tokenAddrMap := Function.update r.server.tokenAddrMap (r.server.idCounter + 1) (some addr) }) :
    Numbered ⟨s', r.given ++ [(r.server.idCounter + 1, stream)],
      r.connected ++ [(r.server.idCounter + 1, stream)]⟩ := by
  subst hs'
  have hnew : ∀ c ∈ r.given, c.1 ≠ r.server.idCounter + 1 := fun c hc =>
    Nat.ne_of_lt (Nat.lt_succ_of_le (h.range c hc).2.1)
  refine ⟨h.backupToken, h.primaryToken, ?_, ?_, ?_, ?_, ?_⟩
  -- `distinct`: every number given before is at most the counter
  · rw [List.map_append, List.nodup_append]
    refine ⟨h.distinct, List.nodup_singleton _, ?_⟩
    intro token htoken token' htoken'
    obtain ⟨c, hc, rfl⟩ := List.mem_map.1 htoken
    obtain rfl := List.mem_singleton.1 htoken'
    exact hnew c hc
  · intro c hc
    rcases List.mem_append.1 hc with hc | hc
    · obtain ⟨hpos, hle, hlt⟩ := h.range c hc
      exact ⟨hpos, Nat.le_succ_of_le hle, hlt⟩
    · obtain rfl := List.mem_singleton.1 hc
      exact ⟨Nat.succ_pos _, Nat.le_refl _, Nat.succ_lt_succ hroom⟩
  · intro c hc
    rcases List.mem_append.1 hc with hc | hc
    · exact List.mem_append_left _ (h.taken c hc)
    · exact List.mem_append_right _ hc
  · intro c hc
    dsimp only
    rcases List.mem_append.1 hc with hc | hc
    · rw [Function.update_of_ne (hnew c (h.taken c hc))]
      exact h.own c hc
    · obtain rfl := List.mem_singleton.1 hc
      exact Function.update_self _ _ _
  · intro token stream' hstream'
    by_cases hlast : token = r.server.idCounter + 1
    · subst hlast
      exact Or.inl ⟨Nat.le_refl _, Nat.succ_lt_succ hroom⟩
    · dsimp only at hstream'
      rw [Function.update_of_ne hlast] at hstream'
      exact (h.domain token stream' hstream').imp_left
        fun hold => ⟨Nat.le_succ_of_le hold.1, hold.2⟩

/-- A client that is not taken uses a number up. -/
theorem Numbered.lost {r : Roll} (h : Numbered r) {s' : RegistryServer}
    (hs' : s' = { r.server with idCounter := r.server.idCounter + 1 }) :
    Numbered ⟨s', r.given, r.connected⟩ := by
  subst hs'
  refine ⟨h.backupToken, h.primaryToken, h.distinct, fun c hc => ?_, h.taken, h.own,
    fun token stream hstream => ?_⟩
  · obtain ⟨hpos, hle, hlt⟩ := h.range c hc
    exact ⟨hpos, Nat.le_succ_of_le hle, hlt⟩
  · exact (h.domain token stream hstream).imp_left
      fun hold => ⟨Nat.le_succ_of_le hold.1, hold.2⟩

/-- A connection ends, or one that is not there. -/
theorem Numbered.gone {r : Roll} (h : Numbered r) (token : Token) {s' : RegistryServer}
    (hs' : s' = r.server ∨ s' = { r.server with
      tokenStreamMap := Function.update r.server.tokenStreamMap token none
      tokenAddrMap := Function.update r.server.tokenAddrMap token none }) :
    Numbered ⟨s', r.given, r.connected.filter fun c => c.1 != token⟩ := by
  have htaken : ∀ c ∈ r.connected.filter (fun c => c.1 != token), c ∈ r.connected ∧ c.1 ≠ token := by
    intro c hc
    obtain ⟨hc, hne⟩ := List.mem_filter.1 hc
    exact ⟨hc, by simpa using hne⟩
  rcases hs' with rfl | rfl
  · exact ⟨h.backupToken, h.primaryToken, h.distinct, h.range, fun c hc => h.taken c (htaken c hc).1,
      fun c hc => h.own c (htaken c hc).1, h.domain⟩
  · refine ⟨h.backupToken, h.primaryToken, h.distinct, h.range,
      fun c hc => h.taken c (htaken c hc).1, fun c hc => ?_, fun token' stream hstream => ?_⟩
    · exact (Function.update_of_ne (htaken c hc).2 _ _).trans (h.own c (htaken c hc).1)
    · by_cases heq : token' = token
      · subst heq
        simp at hstream
      · dsimp only at hstream
        rw [Function.update_of_ne heq] at hstream
        exact h.domain token' stream hstream

/-- A message has been read. -/
theorem Numbered.request {r : Roll} (h : Numbered r) {s' : RegistryServer}
    (hs' : s' = { r.server with
      accessManager := s'.accessManager, requestCounter := s'.requestCounter }) :
    Numbered ⟨s', r.given, r.connected⟩ := by
  rw [hs']
  exact ⟨h.backupToken, h.primaryToken, h.distinct, h.range, h.taken, h.own, h.domain⟩

theorem Numbered.connection {r : Roll} (h : Numbered r) {env : Env} {stream : TcpStream}
    {addr : SocketAddr} (hroom : Room r (.connection env stream addr : Input Bytes)) :
    Numbered (r.step serde (.connection env stream addr)).1 ∧
    ∀ e ∈ (r.step serde (.connection env stream addr)).2, e.replaced = none := by
  unfold Roll.step
  by_cases hawaits : r.server.AwaitsPrimary
  · have htakes : ¬ r.server.TakesClient env stream := fun hno => hno.1 hawaits
    simp only [if_neg htakes]
    refine ⟨h.primary (RegistryServer.step_primary serde hawaits stream addr), fun e he => ?_⟩
    have hfree : r.server.tokenStreamMap r.server.nextToken = none := by
      rw [nextToken_primary hawaits, h.primaryToken]
      by_contra hsome
      obtain ⟨stream', hstream'⟩ := Option.ne_none_iff_exists'.1 hsome
      rcases h.domain 1000 stream' hstream' with ⟨-, hlt⟩ | ⟨-, hcome⟩
      · exact absurd hlt (by decide)
      · exact hcome hawaits
    split at he
    · obtain rfl := List.mem_singleton.1 he
      exact hfree
    · cases he
  · by_cases htakes : r.server.TakesClient env stream
    · have hlt : r.server.idCounter < 998 := hroom htakes
      simp only [if_pos htakes, nextToken_client hawaits]
      refine ⟨h.client hlt (step_takesClient serde htakes addr), fun e he => ?_⟩
      obtain rfl := List.mem_singleton.1 he
      dsimp only
      by_contra hsome
      obtain ⟨stream', hstream'⟩ := Option.ne_none_iff_exists'.1 hsome
      rcases h.domain _ stream' hstream' with ⟨hle, -⟩ | ⟨heq, -⟩
      · exact Nat.not_succ_le_self _ hle
      · exact Nat.ne_of_lt (Nat.lt_trans (Nat.succ_lt_succ hlt) (by decide)) heq
    · simp only [if_neg htakes]
      refine ⟨h.lost (step_losesClient serde hawaits htakes addr), fun e he => ?_⟩
      rw [if_neg fun hno => hawaits hno.1] at he
      cases he

theorem Numbered.readable {r : Roll} (h : Numbered r) (env : Env) (token : Token)
    (read : ReadResult Bytes) :
    Numbered (r.step serde (.readable env token read)).1 ∧
    (r.step serde (.readable env token read)).2 = [] := by
  have hreadable := step_readable serde env r.server token read
  unfold Roll.step
  generalize (RegistryServer.step serde r.server (.readable env token read)).1 = s'
    at hreadable ⊢
  by_cases hends : read.Ends
  · simp only [if_pos hends]
    refine ⟨?_, trivial⟩
    cases hreadable with
    | idle => exact h.gone token (Or.inl rfl)
    | gone => exact h.gone token (Or.inr rfl)
    | request => exact hends.elim
  · simp only [if_neg hends]
    refine ⟨?_, trivial⟩
    cases hreadable with
    | idle => exact h
    | gone _ hread => exact absurd hread hends
    | request data _ _ _ hs' => exact h.request hs'

theorem Numbered.step {r : Roll} (h : Numbered r) {i : Input Bytes} (hroom : Room r i) :
    Numbered (r.step serde i).1 ∧ ∀ e ∈ (r.step serde i).2, e.replaced = none := by
  cases i with
  | connection env stream addr => exact h.connection serde hroom
  | readable env token read =>
      obtain ⟨hnext, hnone⟩ := h.readable serde env token read
      refine ⟨hnext, fun e he => ?_⟩
      rw [hnone] at he
      cases he

/-- **Tokens do not collide**, and no stream is lost from `token_stream_map` to another one, in
every run in which fewer than 999 clients come. -/
theorem tokens_separate (secondaryServer : Option (SocketAddr × TcpStream))
    (inputs : List (Input Bytes))
    (h : (machine serde secondaryServer).Along Room ⟨new secondaryServer, [], []⟩ inputs) :
    Separate ((machine serde secondaryServer).run inputs).1 ∧
    ∀ e ∈ ((machine serde secondaryServer).run inputs).2, e.replaced = none := by
  have hrun := IOMachine.run_induction_along (M := machine serde secondaryServer)
    (fun r log => Numbered r ∧ ∀ e ∈ log, e.replaced = none) ⟨.start secondaryServer, by simp⟩ ?_
    inputs h
  · exact ⟨hrun.1.separate, hrun.2⟩
  · rintro r log i hroom ⟨hr, hlog⟩
    obtain ⟨hnext, hnone⟩ := hr.step serde hroom
    refine ⟨hnext, fun e he => ?_⟩
    rcases List.mem_append.1 he with he | he
    · exact hlog e he
    · exact hnone e he

/-- Two clients come, and the first leaves. -/
theorem tokens_separate_two :
    Separate ((machine Serde.direct (some (⟨"127.0.0.1", 8889⟩, 7))).run
      [arrival 0, arrival 1, .readable (Env.calm .ascending) 1 .eof]).1 :=
  (tokens_separate Serde.direct (some (⟨"127.0.0.1", 8889⟩, 7))
    [arrival 0, arrival 1, .readable (Env.calm .ascending) 1 .eof]
    ⟨fun _ => by decide, fun _ => by decide, trivial, trivial⟩).1

end Roll

end RegistryServer

end Soros
