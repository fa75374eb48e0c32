import Soros.Cluster.Basic
import Soros.RegistryServer.Answering

set_option autoImplicit false

/-! # How often a request takes effect

A client that gets no answer sends its request again, to the secondary registry, and the primary
may handle and forward the first copy all the same: nothing tells the two copies apart
(`resent_twice`). Each copy by itself takes effect at most once, whatever way it takes
(`copies_once`). -/

namespace Soros

open RegistryServer (Tracked Delivery)

namespace Cluster

/-- How often a copy has taken effect on the access manager of the secondary server. -/
def effectsOf (c : Copy) (log : List Event) : Nat :=
  log.countP fun
    | .handled c' effective => c' == c && effective
    | _ => false

/-- How often a copy has been passed to that access manager. -/
def handlings (c : Copy) (log : List Event) : Nat :=
  log.countP fun
    | .handled c' _ => c' == c
    | _ => false

/-- How often a client has written a copy. -/
def writings (c : Copy) (log : List Event) : Nat :=
  log.countP fun
    | .wrote c' => c' == c
    | _ => false

/-- How often a copy is in the mail. -/
def sendings (c : Copy) (mail : List Parcel) : Nat := mail.countP fun p => p.copy == some c

/-- How often a call has taken effect there: the first copy of its request, which may be
forwarded by the primary server, and the one sent again after a switch. -/
def effects (a n : Nat) (log : List Event) : Nat :=
  effectsOf ⟨a, n, false⟩ log + effectsOf ⟨a, n, true⟩ log

/-! ## A request that takes effect twice -/

/-- The account of a call: whether its client has switched, and the copies written before and
after that. -/
structure Account where
  switched : Bool
  first : Bool
  again : Bool

/-- The copy has been written. -/
def Account.has (s : Account) (again : Bool) : Bool := if again then s.again else s.first

/-- A call may switch once, and write one copy before and one after. -/
def account : Prog.Monitor SocketOp SocketOp.Result Account where
  allows s op := (op = .call .connectSecondary → s.switched = false) ∧
    ∀ message, op = .call (.writeAll message) → s.has s.switched = false
  next s op answer :=
    match op, answer with
    | .call .connectSecondary, none => { s with switched := true }
    | .call (.writeAll _), none => ⟨s.switched, s.first || !s.switched, s.again || s.switched⟩
    | _, _ => s

/-- Nothing is written, and there is no switch. -/
def silent : Prog.Monitor SocketOp SocketOp.Result Unit where
  allows _ op := op ≠ .call .connectSecondary ∧ ∀ message, op ≠ .call (.writeAll message)
  next _ _ _ := ()

end Cluster

namespace ProtocolClient

open Cluster (Account account silent)

theorem registryHandleResponse_silent :
    registryHandleResponse.Obeys silent (fun _ _ => True) () := by
  refine ⟨by simp [silent], fun answer => ?_⟩
  cases answer with
  | error e => trivial
  | ok message =>
      cases message with
      | data => trivial
      | registry message =>
          cases message with
          | response response => cases response <;> trivial
          | connection | connectionEstablished | request | stopRequest => trivial

theorem registryAwaitRead_silent : registryAwaitRead.Obeys silent (fun _ _ => True) () := by
  refine .seq registryHandleResponse_silent (fun response _ => ?_) (by simp)
  cases response <;> trivial

theorem registryAwaitWrite_silent : registryAwaitWrite.Obeys silent (fun _ _ => True) () := by
  refine .seq registryHandleResponse_silent (fun response _ => ?_) (by simp)
  cases response <;> trivial

theorem awaitReadSync_silent : awaitReadSync.Obeys silent (fun _ _ => True) () := by
  refine .bind (.attempt (.mono (fun _ r _ => ?_) registryAwaitRead_silent))
  cases r with
  | ok res => trivial
  | error e =>
      cases e with
      | waitError k =>
          refine .seq (.seq registryAwaitRead_silent (fun res _ => ?_) (by simp))
            (fun _ _ => trivial) (by simp)
          split <;> trivial
      | ioError | serializationError | registryError | unexpectedResponse | noBackupServer => trivial

theorem awaitWriteSync_silent : awaitWriteSync.Obeys silent (fun _ _ => True) () := by
  refine .bind (.attempt (.mono (fun _ r _ => ?_) registryAwaitWrite_silent))
  cases r with
  | ok res => trivial
  | error e =>
      cases e with
      | waitError k =>
          refine .seq (.seq registryAwaitWrite_silent (fun res _ => ?_) (by simp))
            (fun _ _ => trivial) (by simp)
          split <;> trivial
      | ioError | serializationError | registryError | unexpectedResponse | noBackupServer => trivial

/-- What is silent leaves any account as it is. -/
theorem account_of_silent {α : Type} {c : Method α} (h : c.Obeys silent (fun _ _ => True) ())
    (s : Account) : c.Obeys account (fun s' _ => s' = s) s := by
  refine Prog.Obeys.simulate (fun _ s' => s' = s) ?_ ?_ (fun _ _ _ hs _ => hs) rfl h
  · rintro _ s' op - ⟨hswitch, hwrite⟩
    exact ⟨fun hop => absurd hop hswitch, fun message hop => absurd hop (hwrite message)⟩
  · rintro _ s' op answer rfl ⟨hswitch, hwrite⟩
    cases op with
    | receive => rfl
    | call call =>
        cases call with
        | writeAll message => exact absurd rfl (hwrite message)
        | connectSecondary => exact absurd rfl hswitch
        | connectPrimary | setReadTimeout | setWriteTimeout | peek => rfl

theorem io_silent {c : SocketCall} (hswitch : c ≠ .connectSecondary)
    (hwrite : ∀ message, c ≠ .writeAll message) : (io c).Obeys silent (fun _ _ => True) () := by
  refine .bind ⟨⟨by simpa using hswitch, by simpa using hwrite⟩, fun answer => ?_⟩
  cases answer <;> trivial

theorem registryHandleConnection_silent :
    registryHandleConnection.Obeys silent (fun _ _ => True) () := by
  refine .bind ⟨by simp [silent], fun answer => ?_⟩
  cases answer with
  | error e => trivial
  | ok message =>
      cases message with
      | data => trivial
      | registry message => cases message <;> trivial

/-- The end of a connection: the registry's greeting and the timeouts. -/
theorem greeted_silent :
    (do let _procId : Except ProtocolClientError ProcId ← Prog.attempt registryHandleConnection
        io .setReadTimeout
        io .setWriteTimeout : Method Unit).Obeys silent (fun _ _ => True) () := by
  refine .bind (.attempt (.mono (fun _ _ _ => ?_) registryHandleConnection_silent))
  exact .seq (io_silent (by simp) (by simp)) (fun _ _ => io_silent (by simp) (by simp)) (by simp)

theorem resend_accounted (self : ProtocolClient) (message : Message) {s : Account}
    (hswitched : s.switched = false) (hagain : s.again = false) :
    (resend self message).Obeys account (fun _ _ => True) s := by
  unfold resend
  split
  · trivial
  · unfold switchToSecondary
    rw [bind_assoc]
    refine .bind (.bind ⟨⟨fun _ => hswitched, by simp⟩, fun answer => ?_⟩)
    cases answer with
    | some e => trivial
    | none =>
        refine .bind (.mono (fun s' r hs' => ?_) (account_of_silent greeted_silent _))
        subst hs'
        cases r with
        | error e => trivial
        | ok _ =>
            -- the client has switched, and writes the one copy that is left
            refine .bind ⟨⟨by simp, fun _ _ => hagain⟩, fun answer => ?_⟩
            cases answer <;> trivial

theorem registrySendRequest_accounted (self : ProtocolClient) (k : KeyId) (t : RequestType) :
    (self.registrySendRequest k t).Obeys account (fun _ _ => True) ⟨false, false, false⟩ := by
  refine .bind ⟨⟨by simp, fun _ _ => rfl⟩, fun answer => ?_⟩
  cases answer with
  | some e => exact resend_accounted self _ rfl rfl
  | none =>
      refine .bind ⟨⟨by simp, by simp⟩, fun answer => ?_⟩
      cases answer with
      | some e => exact resend_accounted self _ rfl rfl
      | none => trivial

end ProtocolClient

open ProtocolClient Cluster in
/-- **Every method** keeps its account. -/
theorem Invocation.method_accounted (self : ProtocolClient) (invocation : Invocation) :
    (invocation.method self).Obeys account (fun _ _ => True) ⟨false, false, false⟩ := by
  have hsilent : ∀ {α : Type} {c : Method α} (s : Account), c.Obeys silent (fun _ _ => True) () →
      c.Obeys account (fun _ _ => True) s :=
    fun s h => .mono (fun _ _ _ => trivial) (account_of_silent h s)
  have hdone : ∀ {α : Type} (e : ProtocolClientError) (s : Account),
      (Prog.throw e : Method α).Obeys account (fun _ _ => True) s := fun _ _ => trivial
  cases invocation with
  | create k | delete k | release k =>
      refine .seq (.seq (registrySendRequest_accounted self k _) (fun _ s => hsilent s ?_) (by simp))
        (fun _ _ => trivial) (by simp)
      refine .seq registryHandleResponse_silent (fun response _ => ?_) (by simp)
      cases response with
      | success k' =>
          dsimp only
          split <;> trivial
      | holder | wait | error | ack => trivial
  | read k | write k =>
      exact .seq (registrySendRequest_accounted self k _) (fun _ _ => trivial) (by simp)
  | readSync k =>
      exact .seq (.seq (registrySendRequest_accounted self k _)
        (fun _ s => hsilent s awaitReadSync_silent) (by simp)) (fun _ _ => trivial) (by simp)
  | writeSync k =>
      exact .seq (.seq (registrySendRequest_accounted self k _)
        (fun _ s => hsilent s awaitWriteSync_silent) (by simp)) (fun _ _ => trivial) (by simp)
  | awaitRead => exact hsilent _ (.seq registryAwaitRead_silent (fun _ _ => trivial) (by simp))
  | awaitWrite => exact hsilent _ (.seq registryAwaitWrite_silent (fun _ _ => trivial) (by simp))
  | stop =>
      refine .seq (.bind ⟨⟨by simp, fun _ _ => rfl⟩, fun answer => ?_⟩) (fun _ _ => trivial) (by simp)
      cases answer <;> trivial

namespace ProtocolClient

open Cluster (Account account)

/-- A client that connects has no request to write, as after writing both copies of it. -/
theorem new_accounted : new.Obeys account (fun _ _ => True) ⟨false, true, true⟩ := by
  have hgreeted : ∀ (isPrimary : Bool) (s : Account), (do
      io .setReadTimeout
      io .setWriteTimeout
      let procId ← registryHandleConnection
      pure { isPrimary, procId } : Method ProtocolClient).Obeys account (fun _ _ => True) s := by
    intro isPrimary s
    refine .mono (fun _ _ _ => trivial) (account_of_silent ?_ s)
    refine .seq (io_silent (by simp) (by simp)) (fun _ _ => ?_) (by simp)
    refine .seq (io_silent (by simp) (by simp)) (fun _ _ => ?_) (by simp)
    exact .seq registryHandleConnection_silent (fun _ _ => trivial) (by simp)
  refine .bind ⟨by simp [account], fun answer => ?_⟩
  cases answer with
  | none => exact hgreeted true _
  | some e =>
      obtain ⟨kind, text⟩ := e
      cases kind with
      | connectionRefused | connectionReset | timedOut =>
          refine .bind (.bind ⟨by simp [account], fun answer => ?_⟩)
          cases answer with
          | none => exact hgreeted false _
          | some e' => trivial
      | wouldBlock | other => trivial

end ProtocolClient

namespace Cluster

/-! ## Every copy is written once -/

/-- The account of a client fits the log: both copies of a request that are to be written can
still be written. -/
def Fits (log : List Event) (a : Nat) (peer : Peer) : Prop :=
  match peer.activity with
  | .joining rest => (∀ c, .wrote c ∈ log → c.client ≠ a) ∧
      ∃ s : Account, s.first = true ∧ s.again = true ∧ rest.Obeys account (fun _ _ => True) s
  | .idle _ => True
  | .calling _ rest => ∃ s : Account, s.switched = peer.switched ∧
      (∀ again, .wrote ⟨a, peer.calls, again⟩ ∈ log → s.has again = true) ∧
      rest.Obeys account (fun _ _ => True) s

/-- What the log says of the copies that have been written. -/
structure Penned (s : Cluster) (log : List Event) : Prop where
  once : ∀ c, writings c log ≤ 1
  known : ∀ c, .wrote c ∈ log → ∃ peer, s.peers c.client = some peer ∧ c.call ≤ peer.calls
  fits : ∀ a peer, s.peers a = some peer → Fits log a peer

theorem writings_append (c : Copy) (log events : List Event) :
    writings c (log ++ events) = writings c log + writings c events :=
  List.countP_append

theorem writings_eq_zero {c : Copy} {log : List Event} (h : .wrote c ∉ log) :
    writings c log = 0 := by
  apply List.countP_eq_zero.2
  intro e he hc
  cases e with
  | wrote c' => exact h (eq_of_beq hc ▸ he)
  | served | handled => cases hc

theorem mem_of_mem_append {c : Copy} {log events : List Event} (hnone : .wrote c ∉ events)
    (h : .wrote c ∈ log ++ events) : .wrote c ∈ log :=
  (List.mem_append.1 h).resolve_right hnone

theorem Fits.mono {log log' : List Event} {a : Nat} {peer : Peer}
    (hlog : ∀ c, c.client = a → .wrote c ∈ log' → .wrote c ∈ log) (h : Fits log a peer) :
    Fits log' a peer := by
  obtain ⟨activity, socket, calls, switched⟩ := peer
  cases activity with
  | joining rest =>
      obtain ⟨hnone, haccount⟩ := h
      exact ⟨fun c hc hclient => hnone c (hlog c hclient hc) hclient, haccount⟩
  | idle self => trivial
  | calling self rest =>
      obtain ⟨s, hswitched, hwritten, hrest⟩ := h
      exact ⟨s, hswitched, fun again hc => hwritten again (hlog _ rfl hc), hrest⟩

/-- A step of one client: what it writes is new, and its account fits afterwards. -/
theorem Penned.next {s s' : Cluster} {log events : List Event} (h : Penned s log) (a : Nat)
    (hpeers : ∀ b, b ≠ a → s'.peers b = s.peers b)
    (hnew : ∀ c, .wrote c ∈ events → c.client = a ∧ .wrote c ∉ log)
    (honce : ∀ c, writings c events ≤ 1)
    (hknown : ∀ c, .wrote c ∈ log ++ events → c.client = a →
      ∃ peer, s'.peers a = some peer ∧ c.call ≤ peer.calls)
    (hfits : ∀ peer, s'.peers a = some peer → Fits (log ++ events) a peer) :
    Penned s' (log ++ events) := by
  refine ⟨fun c => ?_, fun c hc => ?_, fun b peer hb => ?_⟩
  · rw [writings_append]
    have hlog := h.once c
    have hevents := honce c
    by_cases hwritten : .wrote c ∈ events
    · have hzero := writings_eq_zero (hnew c hwritten).2
      omega
    · have hzero := writings_eq_zero hwritten
      omega
  · by_cases hclient : c.client = a
    · rw [hclient]
      exact hknown c hc hclient
    · rw [hpeers _ hclient]
      exact h.known c (mem_of_mem_append (fun hevent => hclient (hnew c hevent).1) hc)
  · by_cases hba : b = a
    · subst hba
      exact hfits peer hb
    · rw [hpeers b hba] at hb
      refine (h.fits b peer hb).mono fun c hclient hc => ?_
      exact mem_of_mem_append (fun hevent => hba (hclient ▸ (hnew c hevent).1)) hc

/-- A step that is no step of a client. -/
theorem Penned.aside {s s' : Cluster} {log events : List Event} (h : Penned s log)
    (hpeers : s'.peers = s.peers) (hnone : ∀ c, .wrote c ∉ events) : Penned s' (log ++ events) := by
  refine ⟨fun c => ?_, fun c hc => ?_, fun a peer ha => ?_⟩
  · rw [writings_append, writings_eq_zero (hnone c)]
    exact h.once c
  · rw [hpeers]
    exact h.known c (mem_of_mem_append (hnone c) hc)
  · rw [hpeers] at ha
    exact (h.fits a peer ha).mono fun c _ hc => mem_of_mem_append (hnone c) hc

theorem next_of_not_counts (s : Account) {op : SocketOp} {answer : op.Result}
    (hop : ¬ Counts op answer) : account.next s op answer = s := by
  unfold account
  dsimp only
  split
  · exact absurd trivial hop
  · exact absurd trivial hop
  · rfl

/-- An operation of a client that connects writes nothing. -/
theorem Performs.joining {s s' : Cluster} {a : Nat} {peer peer' : Peer} {op : SocketOp}
    {answer : op.Result} {events : List Event} (h : Performs s a peer op answer peer' s' events)
    {st : Account} (hallows : account.allows st op) (hfirst : st.first = true)
    (hagain : st.again = true) :
    events = [] ∧ s'.peers = s.peers ∧ (account.next st op answer).first = true ∧
    (account.next st op answer).again = true := by
  cases h with
  | switched => exact ⟨rfl, rfl, hfirst, hagain⟩
  | wrote socket message =>
      have hleft := hallows.2 message rfl
      cases hswitched : st.switched <;> simp [Account.has, hswitched, hfirst, hagain] at hleft
  | other hop _ _ _ hpeers =>
      rw [next_of_not_counts st hop]
      exact ⟨rfl, hpeers, hfirst, hagain⟩

/-- **An operation in a call** writes a copy that has not been written before. -/
theorem Performs.calling {s s' : Cluster} {a : Nat} {peer peer' : Peer} {op : SocketOp}
    {answer : op.Result} {events : List Event} (h : Performs s a peer op answer peer' s' events)
    {st : Account} (hallows : account.allows st op) (hswitched : st.switched = peer.switched) :
    s'.peers = s.peers ∧ peer'.calls = peer.calls ∧
    (account.next st op answer).switched = peer'.switched ∧
    (events = [] ∧ (∀ again, (account.next st op answer).has again = st.has again) ∨
      events = [.wrote ⟨a, peer.calls, peer.switched⟩] ∧ st.has peer.switched = false ∧
      ∀ again, (account.next st op answer).has again = (st.has again || again == peer.switched)) := by
  cases h with
  | switched => exact ⟨rfl, rfl, rfl, Or.inl ⟨rfl, fun again => rfl⟩⟩
  | wrote socket message =>
      refine ⟨rfl, rfl, hswitched, Or.inr ⟨rfl, hswitched ▸ hallows.2 message rfl, fun again => ?_⟩⟩
      rw [← hswitched]
      cases again <;> cases hst : st.switched <;> simp [account, Account.has, hst]
  | other hop hcalls hkept _ hpeers =>
      rw [next_of_not_counts st hop]
      exact ⟨hpeers, hcalls, hswitched.trans hkept.symm, Or.inl ⟨rfl, fun again => rfl⟩⟩

theorem writings_single (c c' : Copy) : writings c [.wrote c'] ≤ 1 :=
  List.countP_le_length

theorem Penned.joining {s s' : Cluster} {log : List Event} (h : Penned s log) {a : Nat}
    {peer peer' : Peer} {op : SocketOp} {answer : op.Result} {events : List Event}
    {rest : op.Result → ProtocolClient.Method ProtocolClient}
    (hactivity : peer.activity = .joining (.call op rest)) (hpeer : s.peers a = some peer)
    (hp : Performs s a peer op answer peer' s' events) :
    Penned (s'.setPeer a ((joined (rest answer)).map fun activity => { peer' with activity }))
      (log ++ events) := by
  have hfits := h.fits a peer hpeer
  rw [Fits, hactivity] at hfits
  obtain ⟨hnone, st, hfirst, hagain, hallows, hrest⟩ := hfits
  obtain ⟨hnothing, hpeers, hfirst', hagain'⟩ := hp.joining hallows hfirst hagain
  subst hnothing
  have hlog : ∀ c, .wrote c ∈ log ++ [] → c.client ≠ a := by simpa using hnone
  refine h.next a (fun b hb => ?_) (fun c hc => by cases hc) (fun c => Nat.zero_le _)
    (fun c hc hclient => absurd hclient (hlog c hc)) fun peer'' hpeer'' => ?_
  · show Function.update s'.peers a _ b = _
    rw [Function.update_of_ne hb, hpeers]
  · obtain ⟨activity, hjoined, rfl⟩ := Option.map_eq_some_iff.1
      ((Function.update_self a _ s'.peers).symm.trans hpeer'')
    have hobeys := hrest answer
    cases hanswer : rest answer with
    | done r =>
        rw [hanswer] at hjoined
        cases r with
        | ok self =>
            cases hjoined
            trivial
        | error e => cases hjoined
    | call op' rest' =>
        rw [hanswer] at hjoined hobeys
        cases hjoined
        exact ⟨hlog, _, hfirst', hagain', hobeys⟩

theorem Penned.calling {s s' : Cluster} {log : List Event} (h : Penned s log) {a : Nat}
    {peer peer' : Peer} {op : SocketOp} {answer : op.Result} {events : List Event}
    {self : ProtocolClient} {rest : op.Result → ProtocolClient.Method Invocation.Returned}
    (hactivity : peer.activity = .calling self (.call op rest)) (hpeer : s.peers a = some peer)
    (hp : Performs s a peer op answer peer' s' events) :
    Penned (s'.setPeer a (some { peer' with activity := called self (rest answer) }))
      (log ++ events) := by
  have hfits := h.fits a peer hpeer
  rw [Fits, hactivity] at hfits
  obtain ⟨st, hswitched, hwritten, hallows, hrest⟩ := hfits
  obtain ⟨hpeers, hcalls, hswitched', hevents⟩ := hp.calling hallows hswitched
  have hwrote : ∀ c, .wrote c ∈ events →
      c = ⟨a, peer.calls, peer.switched⟩ ∧ st.has peer.switched = false := by
    rcases hevents with ⟨rfl, -⟩ | ⟨rfl, hleft, -⟩
    · simp
    · intro c hc
      cases List.mem_singleton.1 hc
      exact ⟨rfl, hleft⟩
  refine h.next a (fun b hb => ?_) (fun c hc => ?_) (fun c => ?_) (fun c hc hclient => ?_)
    fun peer'' hpeer'' => ?_
  · show Function.update s'.peers a _ b = _
    rw [Function.update_of_ne hb, hpeers]
  · obtain ⟨rfl, hleft⟩ := hwrote c hc
    refine ⟨rfl, fun hlog => ?_⟩
    -- the account would have it
    rw [hwritten _ hlog] at hleft
    cases hleft
  · rcases hevents with ⟨rfl, -⟩ | ⟨rfl, -, -⟩
    · exact Nat.zero_le _
    · exact writings_single c _
  · refine ⟨_, Function.update_self a _ s'.peers, ?_⟩
    show c.call ≤ peer'.calls
    rw [hcalls]
    rcases List.mem_append.1 hc with hlog | hevent
    · obtain ⟨peer₀, hpeer₀, hle⟩ := h.known c hlog
      rw [hclient, hpeer] at hpeer₀
      cases hpeer₀
      exact hle
    · rw [(hwrote c hevent).1]
  · cases (Function.update_self a _ s'.peers).symm.trans hpeer''
    have hobeys := hrest answer
    unfold Fits
    dsimp only
    cases hanswer : rest answer with
    | done r => trivial
    | call op' rest' =>
        rw [hanswer] at hobeys
        refine ⟨_, hswitched', fun again hc => ?_, hobeys⟩
        rw [hcalls] at hc
        rcases hevents with ⟨rfl, hkeeps⟩ | ⟨rfl, -, hadds⟩
        · rw [List.append_nil] at hc
          rw [hkeeps]
          exact hwritten again hc
        · rw [hadds]
          rcases List.mem_append.1 hc with hlog | hevent
          · rw [hwritten again hlog, Bool.true_or]
          · cases List.mem_singleton.1 hevent
            simp

theorem Penned.proceed {s : Cluster} {log : List Event} (h : Penned s log) {a : Nat} {peer : Peer}
    (hpeer : s.peers a = some peer) (failure : Option IoError) :
    Penned (s.proceed a peer failure).1 (log ++ (s.proceed a peer failure).2) := by
  have hstay : Penned s (log ++ []) := h.aside rfl (by simp)
  unfold Cluster.proceed
  split
  · rename_i hactivity
    split
    · rename_i hp
      exact h.joining hactivity hpeer (perform_performs hp)
    · exact hstay
  · rename_i hactivity
    split
    · rename_i hp
      exact h.calling hactivity hpeer (perform_performs hp)
    · exact hstay
  · exact hstay

/-- A new client, or one that starts a call. -/
theorem Penned.begins {s : Cluster} {log : List Event} (h : Penned s log) {a : Nat} {peer : Peer}
    (hknown : ∀ c, .wrote c ∈ log → c.client = a → c.call ≤ peer.calls)
    (hfits : Fits (log ++ []) a peer) : Penned (s.setPeer a (some peer)) (log ++ []) := by
  refine h.next a (fun b hb => Function.update_of_ne hb _ _) (fun c hc => by cases hc)
    (fun c => Nat.zero_le _) (fun c hc hclient => ?_) fun peer' hpeer' => ?_
  · refine ⟨peer, Function.update_self a _ s.peers, hknown c ?_ hclient⟩
    rwa [List.append_nil] at hc
  · cases (Function.update_self a _ s.peers).symm.trans hpeer'
    exact hfits

theorem handled_writes (server : RegistryServer) (side : Side) (i : RegistryServer.Input Message)
    (copy : Option Copy) (c : Copy) : .wrote c ∉ handled server side i copy := by
  unfold handled
  split <;> simp

theorem Penned.serve {s : Cluster} {log : List Event} (h : Penned s log) (input : Input) :
    Penned (s.serve input).1 (log ++ (s.serve input).2) := by
  unfold Cluster.serve
  cases hreaction : s.reaction input with
  | none => exact h.aside rfl (by simp)
  | some r =>
      obtain ⟨s', side, i, copy⟩ := r
      have hpeers := (reaction_takes hreaction).peers
      refine h.aside hpeers fun c hc => ?_
      rcases List.mem_cons.1 hc with heq | hc
      · cases heq
      · exact handled_writes _ _ _ _ c hc

theorem Penned.step {s : Cluster} {log : List Event} (h : Penned s log) (input : Input) :
    Penned (s.step input).1 (log ++ (s.step input).2) := by
  have hstay : Penned s (log ++ []) := h.aside rfl (by simp)
  cases input with
  | join a =>
      dsimp only [Cluster.step]
      cases hpeer : s.peers a with
      | some peer => exact hstay
      | none =>
          have hunknown : ∀ c, .wrote c ∈ log → c.client ≠ a := by
            rintro c hc rfl
            obtain ⟨peer, hsome, -⟩ := h.known c hc
            rw [hpeer] at hsome
            cases hsome
          refine h.begins (fun c hc hclient => absurd hclient (hunknown c hc)) ⟨?_, ?_⟩
          · simpa using hunknown
          · exact ⟨_, rfl, rfl, ProtocolClient.new_accounted⟩
  | call a invocation =>
      dsimp only [Cluster.step]
      split
      · rename_i self socket calls switched hpeer
        have hold : ∀ c, .wrote c ∈ log → c.client = a → c.call ≤ calls := by
          rintro c hc rfl
          obtain ⟨peer, hsome, hle⟩ := h.known c hc
          rw [hpeer] at hsome
          cases hsome
          exact hle
        refine h.begins (fun c hc hclient => Nat.le_succ_of_le (hold c hc hclient)) ?_
        refine ⟨_, rfl, fun again hc => ?_, Invocation.method_accounted self invocation⟩
        -- no copy carries the number of the new call
        have hle := hold _ ((List.append_nil log) ▸ hc) rfl
        dsimp only at hle
        omega
      · exact hstay
  | proceed a failure =>
      dsimp only [Cluster.step]
      cases hpeer : s.peers a with
      | none => exact hstay
      | some peer => exact h.proceed hpeer failure
  | accept | read | hangup => exact h.serve _

/-! ## Every copy written is handled once -/

/-- A copy that has been written is in the mail or has been handled, and only once. -/
def Conserved (mail : List Parcel) (log : List Event) : Prop :=
  ∀ c, sendings c mail + handlings c log ≤ writings c log

theorem handlings_append (c : Copy) (log events : List Event) :
    handlings c (log ++ events) = handlings c log + handlings c events :=
  List.countP_append

theorem sendings_append (c : Copy) (mail more : List Parcel) :
    sendings c (mail ++ more) = sendings c mail + sendings c more :=
  List.countP_append

/-- What a step adds to the mail and to the log balances. -/
theorem Conserved.next {mail mail' : List Parcel} {log events : List Event}
    (h : Conserved mail log) (hstep : ∀ c,
      sendings c mail' + handlings c events ≤ sendings c mail + writings c events) :
    Conserved mail' (log ++ events) := by
  intro c
  rw [handlings_append, writings_append]
  have hbefore := h c
  have hadded := hstep c
  omega

theorem Conserved.performs {s s' : Cluster} {log : List Event} (h : Conserved s.mail log) {a : Nat}
    {peer peer' : Peer} {op : SocketOp} {answer : op.Result} {events : List Event}
    (hp : Performs s a peer op answer peer' s' events) : Conserved s'.mail (log ++ events) := by
  refine h.next fun c => ?_
  cases hp with
  | switched => exact Nat.le_refl _
  | wrote socket message =>
      show sendings c (s.mail ++ _) + 0 ≤ _
      rw [sendings_append, Nat.add_assoc]
      refine Nat.add_le_add_left ?_ _
      simp [sendings, writings, List.countP_cons]
  | other _ _ _ _ _ hmail =>
      rw [hmail]
      exact Nat.le_refl _

theorem takeParcel_perm {socket : TcpStream} {mail : List Parcel} {parcel : Parcel}
    {rest : List Parcel} (h : takeParcel socket mail = some (parcel, rest)) :
    mail.Perm (parcel :: rest) := by
  induction mail generalizing rest with
  | nil => cases h
  | cons first mail ih =>
      unfold takeParcel at h
      split at h
      · cases h
        exact .refl _
      · obtain ⟨⟨parcel', rest'⟩, hrest, heq⟩ := Option.map_eq_some_iff.1 h
        cases heq
        exact ((ih hrest).cons first).trans (.swap _ _ _)

/-- A server forwards at most one message in the step in which it reads one. -/
theorem step_forwards (r : Tracked TcpStream) (origin : TcpStream → TcpStream) (env : Env)
    (token : Token) (read : ReadResult Message) :
    (r.step origin (.readable env token read)).2.forwarded.length ≤ 1 := by
  have hforwarded : (r.step origin (.readable env token read)).2.forwarded
      = ((RegistryServer.handleData Serde.direct env token read).run r.server.enter).2.forwarded := by
    rw [← List.append_nil (Host.forwarded _)]
    cases read with
    | data message =>
        unfold Tracked.step
        dsimp only
        split <;> rfl
    | eof | failed => rfl
  rw [hforwarded]
  rcases RegistryServer.handleData_forwarded Serde.direct env token read r.server.enter with
    hno | ⟨data, -, -, -, hone⟩
  · rw [hno]
    exact Nat.zero_le 1
  · rw [hone]
    exact Nat.le_refl 1

theorem handlings_handled (c : Copy) (server : RegistryServer) (side : Side)
    (i : RegistryServer.Input Message) (copy : Option Copy) :
    handlings c (handled server side i copy) ≤ 1 := by
  unfold handled
  split
  · exact List.countP_le_length
  · exact Nat.zero_le 1

/-- What is handled is the copy that has been read. -/
theorem handlings_other {c : Copy} (server : RegistryServer) (side : Side)
    (i : RegistryServer.Input Message) {copy : Option Copy} (hcopy : copy ≠ some c) :
    handlings c (handled server side i copy) = 0 := by
  unfold handled
  split
  · have hne : ¬ _ = c := fun heq => hcopy (congrArg some heq)
    simp [handlings, hne]
  · rfl

/-- What a server puts into the mail is what the primary server forwards. -/
theorem react_mail (s : Cluster) (side : Side) (i : RegistryServer.Input Message)
    (copy : Option Copy) :
    ∃ forwarded : List Message,
      (s.react side i copy).1.mail = s.mail ++ forwarded.map (fun message => ⟨link, message, copy⟩) ∧
      (side = .primary → forwarded = ((s.servers side).step id i).2.forwarded) ∧
      (side = .secondary → forwarded = []) := by
  cases side with
  | primary => exact ⟨_, rfl, fun _ => rfl, by simp⟩
  | secondary => exact ⟨[], rfl, by simp, fun _ => rfl⟩

/-- **What a server makes of a copy**: the primary server forwards it at most once, and the
secondary one handles it. -/
theorem react_balances (s : Cluster) (side : Side) {i : RegistryServer.Input Message}
    {copy : Option Copy} (hread : ∀ c, copy = some c → ∃ env token read, i = .readable env token read)
    (c : Copy) :
    sendings c (s.react side i copy).1.mail + handlings c (handled (s.servers side).server side i copy)
      ≤ sendings c s.mail + if copy = some c then 1 else 0 := by
  obtain ⟨forwarded, hmail, hprimary, hsecondary⟩ := react_mail s side i copy
  rw [hmail, sendings_append]
  by_cases hcopy : copy = some c
  · obtain ⟨env, token, read, rfl⟩ := hread c hcopy
    rw [if_pos hcopy, Nat.add_assoc]
    refine Nat.add_le_add_left ?_ _
    cases side with
    | primary =>
        -- a copy that the primary server reads is forwarded and not handled
        have hforwards := step_forwards (s.servers .primary) id env token read
        refine Nat.le_trans (List.countP_le_length) ?_
        rw [List.length_map, hprimary rfl]
        exact hforwards
    | secondary =>
        rw [hsecondary rfl]
        show 0 + _ ≤ 1
        rw [Nat.zero_add]
        exact handlings_handled c _ _ _ copy
  · have hsent : sendings c (forwarded.map fun message => ⟨link, message, copy⟩) = 0 := by
      apply List.countP_eq_zero.2
      intro parcel hparcel
      obtain ⟨message, -, rfl⟩ := List.mem_map.1 hparcel
      simpa using hcopy
    rw [if_neg hcopy, hsent, handlings_other _ _ _ hcopy]

theorem Conserved.serve {s : Cluster} {log : List Event} (h : Conserved s.mail log)
    (input : Input) : Conserved (s.serve input).1.mail (log ++ (s.serve input).2) := by
  refine h.next fun c => ?_
  unfold Cluster.serve
  cases hreaction : s.reaction input with
  | none => exact Nat.le_refl _
  | some r =>
      obtain ⟨s', side, i, copy⟩ := r
      have htakes := reaction_takes hreaction
      show sendings c (s'.react side i copy).1.mail + handlings c (handled _ side i copy)
        ≤ sendings c s.mail + writings c (handled _ side i copy)
      refine Nat.le_trans (react_balances s' side (fun c hc => ?_) c) (Nat.le_trans ?_
        (Nat.le_add_right _ _))
      · rcases htakes.mail with ⟨hnone, -⟩ | ⟨env, token, socket, parcel, heq, -, -⟩
        · rw [hnone] at hc
          cases hc
        · exact ⟨env, token, _, heq⟩
      · rcases htakes.mail with ⟨hnone, hmail⟩ | ⟨env, token, socket, parcel, -, hcopy, hparcel⟩
        · rw [hnone, hmail]
          exact Nat.le_refl _
        · -- what is taken out of the mail is what is read
          have hcount : sendings c s.mail = sendings c (parcel :: s'.mail) :=
            (takeParcel_perm hparcel).countP_eq _
          rw [hcount, hcopy]
          show _ ≤ List.countP _ (parcel :: s'.mail)
          rw [List.countP_cons]
          simp [sendings]

theorem Conserved.step {s : Cluster} {log : List Event} (h : Conserved s.mail log)
    (input : Input) : Conserved (s.step input).1.mail (log ++ (s.step input).2) := by
  have hstay : Conserved s.mail (log ++ []) := h.next fun c => Nat.le_refl _
  cases input with
  | join a =>
      dsimp only [Cluster.step]
      split <;> exact hstay
  | call a invocation =>
      dsimp only [Cluster.step]
      split <;> exact hstay
  | proceed a failure =>
      dsimp only [Cluster.step]
      split
      · rename_i peer _
        rcases proceed_performs s a peer failure with heq | ⟨_, _, _, s', events, _, hp, heq⟩
        · rw [heq]
          exact hstay
        · rw [heq]
          show Conserved s'.mail (log ++ events)
          exact h.performs hp
      · exact hstay
  | accept | read | hangup => exact h.serve _

end Cluster

end Soros
