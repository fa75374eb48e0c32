import Soros.AccessManager.Fairness
import Soros.RegistryServer.Courses

set_option autoImplicit false

/-! # Which connection a grant belongs to

The registry queues a request under the process id that the request names, and sends the grant
to the connection with that number as its token. `Tracked` remembers beside the registry where
each queued request has come from, and so what each message that is written goes back to. Take
the connection over which a request has arrived: the two agree as long as every step is `Steady`,
and then every grant goes where its request came from (`Aligned.step`). -/

namespace Soros

open RwLock
open AccessManager (Effect queueOf grantMessage)

namespace RegistryServer

/-- A registry with the origins of the queued requests, for each key in the order of the queue,
and of the accesses in the channel. -/
structure Tracked (τ : Type) where
  server : RegistryServer
  arrivals : KeyId → List τ
  channel : List τ

/-- What a step has written and forwarded, and the queued requests that it has granted, each
with its origin. -/
structure Delivery (τ : Type) where
  written : List (TcpStream × Message)
  forwarded : List Message
  granted : List (τ × KeyId × RequestType)
  /-- What has been written in a step that reads a message, each with the origin of the request
  that it answers or grants. -/
  attributed : List ((TcpStream × Message) × τ)

/-- The grant in a message: `Success` for a write, `Holder` for a read. -/
def grantIn (w : TcpStream × Message) : Option (TcpStream × KeyId × RequestType) :=
  match w.2 with
  | .registry (.response (.success keyId)) => some (w.1, keyId, .write)
  | .registry (.response (.holder keyId _)) => some (w.1, keyId, .read)
  | _ => none

/-- After the direct answer, which comes first, the grants written are those made, each on the
connection of its request. -/
def Delivery.Delivered (d : Delivery TcpStream) : Prop := d.written.tail.filterMap grantIn = d.granted

instance (d : Delivery TcpStream) : Decidable d.Delivered := by
  unfold Delivery.Delivered; infer_instance

namespace Tracked

variable {τ : Type}

/-- The queue of a key. -/
def queue (s : RegistryServer) (k : KeyId) : List (ProcId × RequestType) :=
  queueOf (s.accessManager.keyStates k)

/-- A step on the key `k` by a request from `origin`: a queue grows at its end and shrinks from
its front. -/
def track (r : Tracked τ) (s' : RegistryServer) (origin : τ) (k : KeyId) :
    (KeyId → List τ) × List (τ × KeyId × RequestType) :=
  let before := queue r.server k
  let after := queue s' k
  let n := before.length - after.length
  if before.length < after.length then
    (Function.update r.arrivals k (r.arrivals k ++ [origin]), [])
  else
    (Function.update r.arrivals k ((r.arrivals k).drop n),
      List.zipWith (fun origin e => (origin, k, e.2)) (r.arrivals k) (before.take n))

/-- What has been written after the answer to a request from `origin`: grants, those of the next
accesses of the channel, and errors, which are answers as well. -/
def ascribe (origin : τ) : List (TcpStream × Message) → List τ →
    List ((TcpStream × Message) × τ)
  | [], _ => []
  | w :: written, [] => (w, origin) :: ascribe origin written []
  | w :: written, o :: origins =>
      if (grantIn w).isSome then (w, o) :: ascribe origin written origins
      else (w, origin) :: ascribe origin written (o :: origins)

/-- What has been written for a request from `origin`: first the answer. -/
def attribution (origin : τ) (written : List (TcpStream × Message)) (origins : List τ) :
    List ((TcpStream × Message) × τ) :=
  match written with
  | [] => []
  | answer :: rest => (answer, origin) :: ascribe origin rest origins

/-- The origins of those accesses in the channel for which something is to be written. -/
def recipients (s : RegistryServer) (batch : List AccessGranted) (channel : List τ) : List τ :=
  (batch.zip channel).filterMap fun a => (delivery Serde.direct s a.1).map fun _ => a.2

/-- A step of the registry; what it reads comes from the `origin` of the socket. -/
def step (r : Tracked τ) (origin : TcpStream → τ) (i : Input Message) : Tracked τ × Delivery τ :=
  let r' := RegistryServer.step Serde.direct r.server i
  let written := r'.2.flatMap Served.written
  let forwarded := r'.2.flatMap Served.forwarded
  match i with
  | .readable env token (.data data) =>
      match r.server.tokenStreamMap token with
      | some stream =>
          let t := match requestIn Serde.direct data with
            | some (_, _, k) => r.track r'.1 (origin stream) k
            | none => (r.arrivals, [])
          let channel := r.channel ++ t.2.map Prod.fst
          let attributed := attribution (origin stream) written
            (recipients r.server (batchOf Serde.direct r.server env data) channel)
          -- the channel is emptied when its accesses are dealt with
          let left := r'.1.accessManager.accessGranted.buffer.length
          (⟨r'.1, t.1, channel.drop (channel.length - left)⟩,
            ⟨written, forwarded, t.2, attributed⟩)
      | none => (⟨r'.1, r.arrivals, r.channel⟩, ⟨written, forwarded, [], []⟩)
  | _ => (⟨r'.1, r.arrivals, r.channel⟩, ⟨written, forwarded, [], []⟩)

end Tracked

/-! ## Steady steps -/

/-- A request that has to wait names its own connection, and a request that lets others in
finds their connections and the holder of the data, and can write to them. -/
structure SteadyRequest (s : RegistryServer) (env : Env) (token : Token) (p : ProcId)
    (t : RequestType) (k : KeyId) : Prop where
  own : (((callOf p t k).invoke env.iter).run s.accessManager).1 = .err (.requestAccess p k) →
    p = token
  delivers : ∀ a ∈ (((callOf p t k).invoke env.iter).run s.accessManager).2.accessGranted.buffer,
    Open env s ∧ (s.tokenStreamMap a.1).isSome ∧ (grantAnswer s a).isSome

/-- The condition under which a step keeps requests and connections together. -/
def Steady (s : RegistryServer) : Input Message → Prop
  | .connection _ _ _ => ∀ k, s.nextToken ∉ (Tracked.queue s k).map Prod.fst
  | .readable env token (.data data) => ∀ p t k, requestIn Serde.direct data = some (p, t, k) →
      SteadyRequest s env token p t k
  | _ => True

/-- **The invariant.** Each queued request is queued under the token of the connection over
which it has arrived, unless that has ended; and no grant is left to be delivered. -/
structure Tracked.Aligned (r : Tracked TcpStream) : Prop where
  valid : r.server.accessManager.Valid
  empty : r.server.accessManager.accessGranted.buffer = []
  arrivals : ∀ k, List.Forall₂
    (fun e stream => ∀ stream', r.server.tokenStreamMap e.1 = some stream' → stream' = stream)
    (Tracked.queue r.server k) (r.arrivals k)

/-- What a message lets in, in a steady step, can be delivered. -/
theorem Steady.delivers {s : RegistryServer} {env : Env} {token : Token} {stream : TcpStream}
    {data : Message} (hsteady : Steady s (.readable env token (.data data)))
    (hempty : s.accessManager.accessGranted.buffer = [])
    (hstream : s.tokenStreamMap token = some stream) :
    Delivers env s token (lockEffect Serde.direct env data s.accessManager).accessGranted.buffer := by
  cases hreq : requestIn Serde.direct data with
  | none =>
      rw [lockEffect_other Serde.direct env hreq]
      exact Or.inl hempty
  | some request =>
      obtain ⟨p, t, k⟩ := request
      have hall := (hsteady p t k hreq).delivers
      rw [lockEffect_request Serde.direct env hreq]
      generalize (((callOf p t k).invoke env.iter).run
        s.accessManager).2.accessGranted.buffer = buffer at hall ⊢
      cases buffer with
      | nil => exact Or.inl rfl
      | cons a buffer =>
          exact Or.inr ⟨(hall a List.mem_cons_self).1, by rw [hstream]; rfl,
            fun a' ha' => (hall a' ha').2.2⟩

/-! ## What a request does to the queue -/

/-- A request joins the queue at its end, or lets in those at its front. -/
theorem queue_of_effect {p : ProcId} {t : RequestType} {k : KeyId} {o o' : Option KeyState}
    {out : Outcome AccessManagerError (Option ProcId)} {messages : List AccessGranted}
    (h : Effect (callOf p t k) o out messages o') :
    (queueOf o' = queueOf o ++ [(p, t)] ∧ messages = [] ∧ out = .err (.requestAccess p k)) ∨
    ∃ (c : ProcId) (es : List (ProcId × Mode)), queueOf o = es.map pending ++ queueOf o' ∧
      messages = es.map (grantMessage k c) := by
  have hask : ∀ (l : FairLock ProcId) (c p : ProcId) (m : Mode), (l.ask p m).1 = true →
      queueOf (some (KeyState.ofLock l.toLock c))
        = queueOf (some (KeyState.ofLock (l.ask p m).2.toLock c)) := by
    intro l c p m hgo
    obtain ⟨hq, hq'⟩ := FairLock.ask_granted_queue hgo
    simp [queueOf, hq, hq']
  generalize hc : callOf p t k = c at h
  cases h with
  | missing | present | busy | unheld => exact Or.inr ⟨0, [], rfl, rfl⟩
  | create => exact Or.inr ⟨0, [], rfl, rfl⟩
  | delete k l c hidle =>
      refine Or.inr ⟨0, [], ?_, rfl⟩
      simp [queueOf, FairLock.queue_of_idle hidle]
  | read k l c p holder hgo => exact Or.inr ⟨0, [], hask l c p .read hgo, rfl⟩
  | write k l c p hgo => exact Or.inr ⟨0, [], hask l c p .write hgo, rfl⟩
  | wait k' l c p' m hwait =>
      have heq : p' = p ∧ requestOf m = t ∧ k' = k := by
        cases m <;> cases t <;> cases hc <;> exact ⟨rfl, rfl, rfl⟩
      obtain ⟨rfl, rfl, rfl⟩ := heq
      have hcons := l.ask_conserves p' m
      rw [if_neg (by simp [hwait]), List.nil_append] at hcons
      refine Or.inl ⟨?_, rfl, rfl⟩
      simp [queueOf, hcons, pending]
  | release k' l c p' hmode =>
      have heq : k' = k := by cases t <;> cases hc; rfl
      subst heq
      refine Or.inr ⟨c, (l.leave p').1, ?_, rfl⟩
      have hcons := congrArg (List.map pending) (l.leave_conserves p')
      rw [List.map_append] at hcons
      exact hcons.symm

/-! ## What is written -/

/-- After the first message, which may be anything, only the deliveries are grants. -/
theorem tail_filterMap_grantIn {first deliveries late : List (TcpStream × Message)}
    (hfirst : first.length ≤ 1) (hnone : first = [] → deliveries = [])
    (hlate : ∀ w ∈ late, ∃ text, w.2 = encode Serde.direct (.error text)) :
    (first ++ deliveries ++ late).tail.filterMap grantIn = deliveries.filterMap grantIn := by
  have herrors : late.filterMap grantIn = [] := by
    refine List.filterMap_eq_nil_iff.2 fun w hw => ?_
    obtain ⟨text, htext⟩ := hlate w hw
    unfold grantIn
    rw [htext]
    rfl
  match first, hfirst with
  | [], _ =>
      rw [hnone rfl, List.nil_append, List.nil_append, List.filterMap_nil]
      refine List.filterMap_eq_nil_iff.2 fun w hw => ?_
      exact List.filterMap_eq_nil_iff.1 herrors w (List.mem_of_mem_tail hw)
  | [x], _ =>
      show (deliveries ++ late).filterMap grantIn = _
      rw [List.filterMap_append, herrors, List.append_nil]

/-- The deliveries to those at the front of the queue go where their requests came from. -/
theorem filterMap_delivery {s : RegistryServer} {k : KeyId} {c : ProcId}
    {rest : List (ProcId × RequestType)} (es : List (ProcId × Mode)) :
    ∀ streams : List TcpStream, List.Forall₂
      (fun (e : ProcId × RequestType) stream =>
        ∀ stream', s.tokenStreamMap e.1 = some stream' → stream' = stream)
      (es.map pending ++ rest) streams →
    (∀ e ∈ es, (s.tokenStreamMap e.1).isSome ∧ (grantAnswer s (grantMessage k c e)).isSome) →
    ((es.map (grantMessage k c)).filterMap (delivery Serde.direct s)).filterMap grantIn
      = List.zipWith (fun stream (e : ProcId × RequestType) => (stream, k, e.2)) streams
          (es.map pending) := by
  induction es with
  | nil => intro streams _ _; simp
  | cons e es ih =>
      intro streams haligned hknown
      obtain ⟨stream, streams, hstream, haligned', rfl⟩ := List.forall₂_cons_left_iff.1 haligned
      obtain ⟨hsome, hanswer⟩ := hknown e List.mem_cons_self
      have hrest := ih streams haligned' fun e' he' => hknown e' (List.mem_cons_of_mem e he')
      obtain ⟨stream', hstream'⟩ := Option.isSome_iff_exists.1 hsome
      obtain rfl : stream' = stream := hstream stream' hstream'
      obtain ⟨response, hresponse⟩ := Option.isSome_iff_exists.1 hanswer
      have hdelivery : delivery Serde.direct s (grantMessage k c e)
          = some (stream', encode Serde.direct response) := by
        unfold delivery
        rw [show (grantMessage k c e).1 = e.1 from rfl, hstream', hresponse]
        rfl
      have hgrant : grantIn (stream', encode Serde.direct response)
          = some (stream', k, requestOf e.2) := by
        obtain ⟨p, m⟩ := e
        cases m with
        | read =>
            obtain ⟨addr, -, rfl⟩ := Option.map_eq_some_iff.1 hresponse
            rfl
        | write =>
            cases hresponse
            rfl
      rw [List.map_cons, List.map_cons, List.filterMap_cons_some hdelivery,
        List.filterMap_cons_some hgrant, hrest]
      rfl

namespace Tracked

/-! ## Tracking -/

section

variable {τ : Type} {r : Tracked τ}

/-- Tracking a step that leaves the queue alone. -/
theorem track_same {s' : RegistryServer} {k : KeyId} (origin : τ)
    (hqueue : queue s' k = queue r.server k) : r.track s' origin k = (r.arrivals, []) := by
  simp [track, hqueue]

/-- Tracking a request that joins the queue. -/
theorem track_join {s' : RegistryServer} {k : KeyId} {e : ProcId × RequestType} (origin : τ)
    (hqueue : queue s' k = queue r.server k ++ [e]) :
    r.track s' origin k = (Function.update r.arrivals k (r.arrivals k ++ [origin]), []) := by
  simp [track, hqueue]

/-- Tracking a request that lets in those at the front of the queue. -/
theorem track_leave {s' : RegistryServer} {k : KeyId} {es : List (ProcId × RequestType)}
    (origin : τ) (hqueue : queue r.server k = es ++ queue s' k) :
    r.track s' origin k = (Function.update r.arrivals k ((r.arrivals k).drop es.length),
      List.zipWith (fun origin e => (origin, k, e.2)) (r.arrivals k) es) := by
  simp [track, hqueue]

end

/-! ## Steps keep requests and connections together -/

variable {r : Tracked TcpStream}

/-- A server with the same key states, which has not connected anybody who waits anew. -/
theorem Aligned.same (h : r.Aligned) {s' : RegistryServer} {channel : List TcpStream}
    (hvalid : s'.accessManager.Valid)
    (hempty : s'.accessManager.accessGranted.buffer = [])
    (hkeys : s'.accessManager.keyStates = r.server.accessManager.keyStates)
    (hstream : ∀ k, ∀ e ∈ queue r.server k, ∀ stream, s'.tokenStreamMap e.1 = some stream →
      r.server.tokenStreamMap e.1 = some stream) : Aligned ⟨s', r.arrivals, channel⟩ where
  valid := hvalid
  empty := hempty
  arrivals := by
    intro k
    have hqueue : queue s' k = queue r.server k := by
      unfold queue
      rw [hkeys]
    rw [show queue (⟨s', r.arrivals, channel⟩ : Tracked TcpStream).server k = queue r.server k
      from hqueue]
    have hboth := (List.forall₂_and_left _ _).2 ⟨hstream k, h.arrivals k⟩
    exact hboth.imp fun e stream hold stream' hstream' => hold.2 stream' (hold.1 stream' hstream')

/-- A server in which the queue of one key has changed. -/
theorem Aligned.update (h : r.Aligned) {s' : RegistryServer} {channel : List TcpStream}
    (hvalid : s'.accessManager.Valid)
    (hempty : s'.accessManager.accessGranted.buffer = [])
    (hmap : s'.tokenStreamMap = r.server.tokenStreamMap) {k : KeyId}
    (hothers : ∀ k', k' ≠ k → queue s' k' = queue r.server k') {streams : List TcpStream}
    (hqueue : List.Forall₂ (fun (e : ProcId × RequestType) stream =>
      ∀ stream', r.server.tokenStreamMap e.1 = some stream' → stream' = stream)
      (queue s' k) streams) : Aligned ⟨s', Function.update r.arrivals k streams, channel⟩ where
  valid := hvalid
  empty := hempty
  arrivals := by
    intro k'
    dsimp only
    rw [hmap]
    by_cases hk' : k' = k
    · subst hk'
      rw [Function.update_self]
      exact hqueue
    · rw [Function.update_of_ne hk', hothers k' hk']
      exact h.arrivals k'

theorem Aligned.connection (h : r.Aligned) {env : Env} {stream : TcpStream} {addr : SocketAddr}
    (hsteady : Steady r.server (.connection env stream addr)) :
    (r.step id (.connection env stream addr)).1.Aligned ∧
    (r.step id (.connection env stream addr)).2.Delivered := by
  refine ⟨?_, ?_⟩
  · show Aligned ⟨(RegistryServer.step Serde.direct r.server (.connection env stream addr)).1,
      r.arrivals, r.channel⟩
    have haccepted := step_accepted Serde.direct env r.server stream addr
    refine h.same (haccepted.manager ▸ h.valid) (haccepted.manager ▸ h.empty)
      (by rw [haccepted.manager]) fun k e he stream' hstream' => ?_
    -- nobody waits under the token of the new connection
    have hfresh : e.1 ≠ r.server.nextToken := by
      intro heq
      exact hsteady k (heq ▸ List.mem_map_of_mem he)
    rwa [haccepted.others hfresh] at hstream'
  · obtain ⟨first, hfirst, hgreeting⟩ := handleConnection_writes Serde.direct env stream addr
      r.server.enter
    show (((handleConnection Serde.direct env stream addr).run r.server.enter).2.written
      ++ []).tail.filterMap grantIn = []
    rw [hfirst, List.append_nil]
    rcases hgreeting with rfl | rfl <;> rfl

theorem step_same {i : Input Message}
    (hqueue : ∀ k, queue (RegistryServer.step Serde.direct r.server i).1 k = queue r.server k) :
    (∃ channel, (r.step id i).1
      = ⟨(RegistryServer.step Serde.direct r.server i).1, r.arrivals, channel⟩) ∧
    (r.step id i).2.written
      = (RegistryServer.step Serde.direct r.server i).2.flatMap Served.written ∧
    (r.step id i).2.granted = [] := by
  unfold step
  cases i with
  | connection => exact ⟨⟨_, rfl⟩, rfl, rfl⟩
  | readable env token read =>
      cases read with
      | eof | failed => exact ⟨⟨_, rfl⟩, rfl, rfl⟩
      | data data =>
          dsimp only
          cases r.server.tokenStreamMap token with
          | none => exact ⟨⟨_, rfl⟩, rfl, rfl⟩
          | some stream =>
              cases requestIn Serde.direct data with
              | none => exact ⟨⟨_, rfl⟩, rfl, rfl⟩
              | some request =>
                  dsimp only
                  rw [track_same _ (hqueue _)]
                  exact ⟨⟨_, rfl⟩, rfl, rfl⟩

/-- A step in which the registry reads no message of a client. -/
theorem Aligned.quiet (h : r.Aligned) {env : Env} {token : Token} {read : ReadResult Message}
    (hquiet : (∀ data, read ≠ .data data) ∨ token = r.server.backupToken ∨
      r.server.tokenStreamMap token = none) :
    (r.step id (.readable env token read)).1.Aligned ∧
    (r.step id (.readable env token read)).2.Delivered := by
  have hreadable := step_readable Serde.direct env r.server token read
  have hsame := hreadable.quiet hquiet
  obtain ⟨⟨channel, hstep⟩, hwritten, hgranted⟩ := step_same (r := r)
    (i := .readable env token read) fun k => by rw [queue, hsame, queue]
  refine ⟨?_, ?_⟩
  · rw [hstep]
    exact h.same (hsame ▸ h.valid) (hsame ▸ h.empty) (by rw [hsame])
      fun _ _ _ _ => hreadable.stream_before
  · unfold Delivery.Delivered
    rw [hwritten, hgranted]
    show (((handleData Serde.direct env token read).run r.server.enter).2.written
      ++ []).tail.filterMap grantIn = []
    rw [handleData_quiet Serde.direct env (h := r.server.enter) hquiet]
    rfl

/-- A call on one key: a request that waits joins the queue with its own connection, and those
that are let in take theirs with them. -/
theorem Aligned.call (h : r.Aligned) {token : Token} {stream : TcpStream}
    (hstream : r.server.tokenStreamMap token = some stream) {p : ProcId} {t : RequestType}
    {k : KeyId} {out : Outcome AccessManagerError (Option ProcId)} {messages : List AccessGranted}
    {o' : Option KeyState}
    (heffect : Effect (callOf p t k) (r.server.accessManager.keyStates k) out messages o')
    (hown : out = .err (.requestAccess p k) → p = token)
    (hlets : ∀ a ∈ messages,
      (r.server.tokenStreamMap a.1).isSome ∧ (grantAnswer r.server a).isSome)
    {s' : RegistryServer} {channel : List TcpStream} (hvalid : s'.accessManager.Valid)
    (hempty : s'.accessManager.accessGranted.buffer = [])
    (hmap : s'.tokenStreamMap = r.server.tokenStreamMap)
    (hkeys : s'.accessManager.keyStates
      = Function.update r.server.accessManager.keyStates k o') :
    Aligned ⟨s', (r.track s' stream k).1, channel⟩ ∧
    (messages.filterMap (delivery Serde.direct r.server)).filterMap grantIn
      = (r.track s' stream k).2 := by
  have hqueue : queue s' k = queueOf o' := by simp [queue, hkeys]
  have hothers : ∀ k', k' ≠ k → queue s' k' = queue r.server k' := by
    intro k' hk'
    simp [queue, hkeys, Function.update_of_ne hk']
  rcases queue_of_effect heffect with ⟨hjoin, rfl, rfl⟩ | ⟨c, es, hleave, rfl⟩
  · -- the request waits, under the token of its connection
    obtain rfl := hown rfl
    rw [track_join stream (hqueue.trans hjoin)]
    have hlast : List.Forall₂ (fun (e : ProcId × RequestType) stream' =>
        ∀ stream'', r.server.tokenStreamMap e.1 = some stream'' → stream'' = stream')
        [(p, t)] [stream] := by
      refine .cons (fun stream' hstream' => ?_) .nil
      rw [hstream] at hstream'
      exact (Option.some.inj hstream').symm
    have hboth := List.rel_append (h.arrivals k) hlast
    have hqueue' : queue s' k = queue r.server k ++ [(p, t)] := hqueue.trans hjoin
    exact ⟨h.update hvalid hempty hmap hothers (hqueue' ▸ hboth), rfl⟩
  · -- those at the front of the queue are let in
    have hleave' : queue r.server k = es.map pending ++ queue s' k := hqueue ▸ hleave
    have harrivals := h.arrivals k
    rw [hleave'] at harrivals
    rw [track_leave stream hleave', List.length_map]
    have hdrop := List.forall₂_drop es.length harrivals
    rw [List.drop_left' (List.length_map _)] at hdrop
    exact ⟨h.update hvalid hempty hmap hothers hdrop,
      filterMap_delivery es (r.arrivals k) harrivals
        fun e he => hlets _ (List.mem_map_of_mem he)⟩

/-- A step in which the registry reads a message of a client. -/
theorem Aligned.message (h : r.Aligned) {env : Env} {token : Token} {stream : TcpStream}
    {data : Message} (hsteady : Steady r.server (.readable env token (.data data)))
    (hbackup : token ≠ r.server.backupToken) (hstream : r.server.tokenStreamMap token = some stream) :
    (r.step id (.readable env token (.data data))).1.Aligned ∧
    (r.step id (.readable env token (.data data))).2.Delivered := by
  have hhandles := step_handles Serde.direct h.valid h.empty hbackup
    (hstream ▸ Option.some_ne_none _) (hsteady.delivers h.empty hstream)
  unfold step Delivery.Delivered
  generalize RegistryServer.step Serde.direct r.server (.readable env token (.data data)) = r'
    at hhandles ⊢
  obtain ⟨hvalid, hempty, hkeys, hmap, first, late, hwritten, hfirst, hnone, hlate⟩ := hhandles
  -- what comes first is no grant, and what comes late is none either
  have hgrants : (r'.2.flatMap Served.written).tail.filterMap grantIn
      = ((lockEffect Serde.direct env data r.server.accessManager).accessGranted.buffer.filterMap
          (delivery Serde.direct r.server)).filterMap grantIn := by
    rw [hwritten]
    exact tail_filterMap_grantIn hfirst (fun hno => by rw [hnone hno]; rfl) hlate
  cases hreq : requestIn Serde.direct data with
  | none =>
      rw [lockEffect_other Serde.direct env hreq] at hkeys hgrants
      simp only [hreq, hstream]
      refine ⟨h.same hvalid hempty hkeys fun _ _ _ _ hstream' => hmap ▸ hstream', ?_⟩
      rw [hgrants, h.empty]
      rfl
  | some request =>
      obtain ⟨p, t, k⟩ := request
      obtain ⟨hown, hlets⟩ := hsteady p t k hreq
      obtain ⟨out, messages, o', heffect, hrun⟩ := callOf_effect h.valid env.iter p t k
      have hbuffer : (r.server.accessManager.after k messages o').accessGranted.buffer = messages := by
        simp [AccessManager.after, AccessManager.sent, h.empty]
      rw [lockEffect_request Serde.direct env hreq, hrun] at hkeys hgrants
      rw [hrun] at hown hlets
      dsimp only at hkeys hgrants hown hlets
      rw [hbuffer] at hgrants hlets
      simp only [hreq, hstream, id]
      rw [hgrants]
      exact h.call hstream heffect hown (fun a ha => (hlets a ha).2) hvalid hempty hmap hkeys

/-- **Every grant goes where its request came from**, in a steady step, and the next step finds
the queues as they should be. -/
theorem Aligned.step (h : r.Aligned) {i : Input Message} (hsteady : Steady r.server i) :
    (r.step id i).1.Aligned ∧ (r.step id i).2.Delivered := by
  cases i with
  | connection env stream addr => exact h.connection hsteady
  | readable env token read =>
      cases read with
      | eof => exact h.quiet (Or.inl (by simp))
      | failed e => exact h.quiet (Or.inl (by simp))
      | data data =>
          by_cases hbackup : token = r.server.backupToken
          · exact h.quiet (Or.inr (Or.inl hbackup))
          · cases hstream : r.server.tokenStreamMap token with
            | none => exact h.quiet (Or.inr (Or.inr hstream))
            | some stream => exact h.message hsteady hbackup hstream

end Tracked

end RegistryServer

end Soros
