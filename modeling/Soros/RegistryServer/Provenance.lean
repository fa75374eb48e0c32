import Soros.RegistryServer.Delivery
import Soros.RegistryServer.Tracking

set_option autoImplicit false

/-! # Which request a message goes back to

Whatever fails in a step, what the registry writes is an answer to the request that it has read,
or grants a request that has waited, to the connection under whose number it was queued.
`Traced` relates the requests that wait, or whose grant is still in the channel, to their
origins, and `Traced.request` says what each message then has to do with its origin. -/

namespace Soros

open RwLock
open AccessManager (Effect queueOf grantMessage)

/-- A response that a request of this type on the key `k` may get, at once or after it has
waited. -/
inductive Responds (t : RequestType) (k : KeyId) : RegistryResponse → Prop where
  | refused (text : String) : Responds t k (.error text)
  | done (hread : t ≠ .read) : Responds t k (.success k)
  | holder (hread : t = .read) (addr : SocketAddr) : Responds t k (.holder k addr)
  | wait : Responds t k (.wait k)

theorem Grants.responds {t : RequestType} {k : KeyId} {response : RegistryResponse}
    (h : Grants k t response) : Responds t k response := by
  cases h with
  | read addr => exact .holder rfl addr
  | write => exact .done (by simp)

namespace RegistryServer

theorem Reply.responds {s : RegistryServer} {p : ProcId} {k : KeyId} {t : RequestType}
    {o o' : Option KeyState} {response : RegistryResponse} {messages : List AccessGranted}
    (h : Reply s p k t o (.ok response) messages o') : Responds t k response := by
  cases h with
  | create | delete | write | release => exact .done (by simp)
  | read l c holder addr => exact .holder rfl addr
  | wait => exact .wait

namespace Tracked

variable {τ : Type}

/-! ## What each message is ascribed to -/

theorem ascribe_fst (origin : τ) (written : List (TcpStream × Message)) :
    ∀ origins : List τ, (ascribe origin written origins).map Prod.fst = written := by
  induction written with
  | nil => intro origins; cases origins <;> rfl
  | cons w written ih =>
      intro origins
      cases origins with
      | nil => simp [ascribe, ih]
      | cons o origins =>
          unfold ascribe
          split <;> simp [ih]

/-- Errors are answers to the request that has been read. -/
theorem ascribe_errors {origin : τ} {late : List (TcpStream × Message)}
    (hlate : ∀ w ∈ late, grantIn w = none) (origins : List τ) :
    ∀ x ∈ ascribe origin late origins, x.1 ∈ late ∧ x.2 = origin := by
  induction late with
  | nil => intro x hx; cases origins <;> cases hx
  | cons w late ih =>
      have hrest := ih fun w' hw' => hlate w' (List.mem_cons_of_mem w hw')
      have hcons : ascribe origin (w :: late) origins = (w, origin) :: ascribe origin late origins := by
        cases origins with
        | nil => rfl
        | cons o origins => simp [ascribe, hlate w List.mem_cons_self]
      intro x hx
      rw [hcons] at hx
      rcases List.mem_cons.1 hx with rfl | hx
      · exact ⟨List.mem_cons_self, rfl⟩
      · exact ⟨List.mem_cons_of_mem w (hrest x hx).1, (hrest x hx).2⟩

theorem grantIn_delivery {s : RegistryServer} {a : AccessGranted} {w : TcpStream × Message}
    (h : delivery Serde.direct s a = some w) : (grantIn w).isSome := by
  obtain ⟨stream, -, h⟩ := Option.bind_eq_some_iff.1 h
  obtain ⟨response, hresponse, rfl⟩ := Option.map_eq_some_iff.1 h
  have hgrants := grants_of_answer hresponse
  generalize a.2.2.1 = t at hgrants
  cases hgrants <;> rfl

/-- The loop over the channel writes to the accesses that it deals with, in their order. -/
theorem ascribe_deliveries {s : RegistryServer} {origin : τ} {late : List (TcpStream × Message)}
    (hlate : ∀ w ∈ late, grantIn w = none) (dealt rest : List AccessGranted) :
    ∀ channel : List τ, (dealt ++ rest).length = channel.length →
    ∀ x ∈ ascribe origin (dealt.filterMap (delivery Serde.direct s) ++ late)
        (recipients s (dealt ++ rest) channel),
      (x.1 ∈ late ∧ x.2 = origin) ∨
      ∃ a, (a, x.2) ∈ (dealt ++ rest).zip channel ∧ delivery Serde.direct s a = some x.1 := by
  induction dealt with
  | nil => exact fun channel _ x hx => Or.inl (ascribe_errors hlate _ x hx)
  | cons a dealt ih =>
      intro channel hlength x hx
      cases channel with
      | nil => simp at hlength
      | cons o channel =>
          have hrest := ih channel (by simpa using hlength)
          have hlater : ∀ x : (TcpStream × Message) × τ, (∃ b, (b, x.2) ∈ (dealt ++ rest).zip channel ∧
              delivery Serde.direct s b = some x.1) →
              ∃ b, (b, x.2) ∈ (a :: dealt ++ rest).zip (o :: channel) ∧
                delivery Serde.direct s b = some x.1 := by
            rintro x ⟨b, hb, hdelivery⟩
            exact ⟨b, List.mem_cons_of_mem _ hb, hdelivery⟩
          cases hdelivery : delivery Serde.direct s a with
          | none =>
              have hskip : recipients s (a :: dealt ++ rest) (o :: channel)
                  = recipients s (dealt ++ rest) channel := by
                simp [recipients, hdelivery]
              rw [hskip, List.filterMap_cons_none hdelivery] at hx
              exact (hrest x hx).imp_right (hlater x)
          | some w =>
              have hnext : recipients s (a :: dealt ++ rest) (o :: channel)
                  = o :: recipients s (dealt ++ rest) channel := by
                simp [recipients, hdelivery]
              rw [hnext, List.filterMap_cons_some hdelivery, List.cons_append, ascribe,
                if_pos (grantIn_delivery hdelivery)] at hx
              rcases List.mem_cons.1 hx with rfl | hx
              · exact Or.inr ⟨a, List.mem_cons_self, hdelivery⟩
              · exact (hrest x hx).imp_right (hlater x)

/-! ## The origins of what waits -/

/-- The origins of the requests that wait, and of those that have been let in and not been told,
are as `fits` says. -/
structure Traced (fits : τ → ProcId → RequestType → KeyId → Prop) (r : Tracked τ) : Prop where
  valid : r.server.accessManager.Valid
  grants : GrantsOnly r.server.accessManager.accessGranted.buffer
  arrivals : ∀ k, List.Forall₂ (fun e o => fits o e.1 e.2 k) (queue r.server k) (r.arrivals k)
  channel : List.Forall₂ (fun (a : AccessGranted) o => fits o a.1 a.2.2.1 a.2.1)
    r.server.accessManager.accessGranted.buffer r.channel

variable {fits : τ → ProcId → RequestType → KeyId → Prop} {r : Tracked τ}

/-- A server with the same access manager. -/
theorem Traced.same (h : r.Traced fits) {s' : RegistryServer}
    (hmanager : s'.accessManager = r.server.accessManager) :
    Traced fits ⟨s', r.arrivals, r.channel⟩ := by
  refine ⟨hmanager ▸ h.valid, hmanager ▸ h.grants, fun k => ?_, ?_⟩
  · have hqueue : queue s' k = queue r.server k := by rw [queue, hmanager, queue]
    exact hqueue ▸ h.arrivals k
  · dsimp only
    rw [hmanager]
    exact h.channel

/-- Another view of the origins. -/
theorem Traced.imp {fits' : τ → ProcId → RequestType → KeyId → Prop} (h : r.Traced fits)
    (hqueue : ∀ k, ∀ e ∈ queue r.server k, ∀ o, fits o e.1 e.2 k → fits' o e.1 e.2 k)
    (hchannel : ∀ a ∈ r.server.accessManager.accessGranted.buffer, ∀ o,
      fits o a.1 a.2.2.1 a.2.1 → fits' o a.1 a.2.2.1 a.2.1) : r.Traced fits' where
  valid := h.valid
  grants := h.grants
  arrivals := by
    intro k
    have hboth := (List.forall₂_and_left _ _).2 ⟨hqueue k, h.arrivals k⟩
    exact hboth.imp fun e o hfits => hfits.1 o hfits.2
  channel := by
    have hboth := (List.forall₂_and_left _ _).2 ⟨hchannel, h.channel⟩
    exact hboth.imp fun a o hfits => hfits.1 o hfits.2

/-- The message with its origin answers the request `p t k` that `origin` has sent on the
connection `stream`, or grants one that has waited. -/
inductive Goes (fits : τ → ProcId → RequestType → KeyId → Prop) (s : RegistryServer)
    (stream : TcpStream) (t : RequestType) (k : KeyId) (origin : τ) :
    (TcpStream × Message) × τ → Prop where
  | answer (response : RegistryResponse) (h : Responds t k response) :
      Goes fits s stream t k origin ((stream, encode Serde.direct response), origin)
  | grant (o : τ) (p : ProcId) (t' : RequestType) (k' : KeyId) (stream' : TcpStream)
      (response : RegistryResponse) (hfits : fits o p t' k')
      (hstream : s.tokenStreamMap p = some stream') (h : Grants k' t' response) :
      Goes fits s stream t k origin ((stream', encode Serde.direct response), o)

/-- What a request leaves of the queue of its key and of the channel, with the origins. -/
theorem Traced.track (h : r.Traced fits) {s' : RegistryServer} {origin : τ} {p : ProcId}
    {t : RequestType} {k : KeyId} {o o' : Option KeyState}
    {out : Outcome AccessManagerError (Option ProcId)} {messages : List AccessGranted}
    (hfits : fits origin p t k) (heffect : Effect (callOf p t k) o out messages o')
    (hbefore : queue r.server k = queueOf o) (hafter : queue s' k = queueOf o') :
    List.Forall₂ (fun e o => fits o e.1 e.2 k) (queue s' k) ((r.track s' origin k).1 k) ∧
    (∀ k', k' ≠ k → (r.track s' origin k).1 k' = r.arrivals k') ∧
    List.Forall₂ (fun (a : AccessGranted) o => fits o a.1 a.2.2.1 a.2.1) messages
      ((r.track s' origin k).2.map Prod.fst) := by
  have harrivals := h.arrivals k
  rcases queue_of_effect heffect with ⟨hjoin, rfl, rfl⟩ | ⟨c, es, hleave, rfl⟩
  · have hqueue : queue s' k = queue r.server k ++ [(p, t)] := by rw [hafter, hbefore, hjoin]
    rw [track_join origin hqueue]
    refine ⟨?_, fun k' hk' => Function.update_of_ne hk' _ _, .nil⟩
    dsimp only
    rw [hqueue, Function.update_self]
    exact List.rel_append harrivals (.cons hfits .nil)
  · have hqueue : queue r.server k = es.map pending ++ queue s' k := by rw [hafter, hbefore, hleave]
    rw [track_leave origin hqueue]
    refine ⟨?_, fun k' hk' => Function.update_of_ne hk' _ _, ?_⟩
    · dsimp only
      rw [Function.update_self]
      have hdrop := List.forall₂_drop (es.map pending).length harrivals
      rwa [hqueue, List.drop_left] at hdrop
    · rw [hqueue] at harrivals
      generalize r.arrivals k = origins at harrivals
      clear hleave hqueue heffect
      induction es generalizing origins with
      | nil => simp
      | cons e es ih =>
          obtain ⟨o, origins, hfirst, hrest, rfl⟩ := List.forall₂_cons_left_iff.1 harrivals
          exact .cons hfirst (ih origins hrest)

/-- What is written for a request, whatever fails: errors to its own connection, or the answer,
the accesses dealt with and perhaps an error. -/
theorem writtenBy_request {s : RegistryServer} (hv : s.accessManager.Valid)
    (hgrants : GrantsOnly s.accessManager.accessGranted.buffer) (env : Env) {token : Token}
    {stream : TcpStream} (hbackup : token ≠ s.backupToken)
    (hstream : s.tokenStreamMap token = some stream) (p : ProcId) (t : RequestType) (k : KeyId) :
    let data : Message := .registry (.request p t k)
    let written := writtenBy Serde.direct s env token data
    (written.length ≤ 1 ∧ ∀ w ∈ written, ∃ text, w = (stream, encode Serde.direct (.error text))) ∨
    ∃ response dealt rest late, Responds t k response ∧
      batchOf Serde.direct s env data = dealt ++ rest ∧
      written = (stream, encode Serde.direct response)
        :: (dealt.filterMap (delivery Serde.direct s) ++ late) ∧
      ∀ w ∈ late, ∃ text, w = (stream, encode Serde.direct (.error text)) := by
  intro data written
  have hparse : Serde.direct.fromSlice data = .ok data := rfl
  obtain ⟨r, messages, o', hreply, hrun⟩ := handleMessage_reply (h := (s.enter : Host Message)) hv
    env p t k
  have hresult : result Serde.direct s env data = .ofExcept r := congrArg Prod.fst hrun
  cases r with
  | error e =>
      obtain ⟨hall, -, hlength⟩ := writtenBy_refused Serde.direct hbackup hstream hparse hresult
        hreply.error.1
      exact Or.inl ⟨hlength, fun w hw => ⟨_, hall w hw⟩⟩
  | ok response =>
      by_cases hwrite : env.clientWrite stream 0 = none
      · obtain ⟨dealt, late, hcourse⟩ := exists_course env s (batchOf Serde.direct s env data)
        have honly := lockEffect_grantsOnly Serde.direct hv hgrants env data
        obtain ⟨answers, hwritten, hall, -⟩ := writtenBy_course Serde.direct hbackup hstream hparse
          hresult hwrite honly hcourse
        obtain ⟨rest, hrest⟩ := hcourse.dealt_prefix
        exact Or.inr ⟨response, dealt, rest, answers, hreply.responds, hrest, hwritten, hall⟩
      · obtain ⟨hall, hlength⟩ := writtenBy_unanswered Serde.direct hbackup hstream hparse hresult
          hwrite
        exact Or.inl ⟨hlength, hall⟩

/-- Each message written for a request goes back to an origin. -/
theorem attribution_goes {s : RegistryServer} {stream : TcpStream} {t : RequestType} {k : KeyId}
    {origin : τ} {batch : List AccessGranted} {channel : List τ}
    {written : List (TcpStream × Message)}
    (hchannel : List.Forall₂ (fun (a : AccessGranted) o => fits o a.1 a.2.2.1 a.2.1) batch channel)
    (hwritten : (written.length ≤ 1 ∧
        ∀ w ∈ written, ∃ text, w = (stream, encode Serde.direct (.error text))) ∨
      ∃ response dealt rest late, Responds t k response ∧ batch = dealt ++ rest ∧
        written = (stream, encode Serde.direct response)
          :: (dealt.filterMap (delivery Serde.direct s) ++ late) ∧
        ∀ w ∈ late, ∃ text, w = (stream, encode Serde.direct (.error text))) :
    ∀ x ∈ attribution origin written (recipients s batch channel),
      Goes fits s stream t k origin x := by
  intro x hx
  -- either the answer alone could be tried, or the answer is followed by deliveries and errors
  rcases hwritten with ⟨hone, herrors⟩ | ⟨response, dealt, rest, late, hresponds, rfl, rfl, herrors⟩
  · match written, hone with
    | [], _ => cases hx
    | [w], _ =>
        have hx' : x = (w, origin) := by
          rcases List.mem_cons.1 hx with rfl | hno
          · rfl
          · generalize recipients s batch channel = origins at hno
            cases origins <;> cases hno
        obtain ⟨text, rfl⟩ := herrors w List.mem_cons_self
        exact hx' ▸ .answer _ (.refused text)
  · rcases List.mem_cons.1 hx with rfl | hx
    · exact .answer response hresponds
    · have hnone : ∀ w ∈ late, grantIn w = none := by
        intro w hw
        obtain ⟨text, rfl⟩ := herrors w hw
        rfl
      -- an error after the answer goes back to the same request
      rcases ascribe_deliveries hnone dealt rest channel hchannel.length_eq x hx with
        ⟨hlate, horigin⟩ | ⟨a, ha, hdelivery⟩
      · obtain ⟨text, htext⟩ := herrors _ hlate
        have hx' : x = ((stream, encode Serde.direct (.error text)), origin) :=
          Prod.ext htext horigin
        exact hx' ▸ .answer _ (.refused text)
      · have hfits := (List.forall₂_iff_zip.1 hchannel).2 ha
        obtain ⟨stream', hstream', hd⟩ := Option.bind_eq_some_iff.1 hdelivery
        obtain ⟨response', hresponse', hd⟩ := Option.map_eq_some_iff.1 hd
        have hx' : x = ((stream', encode Serde.direct response'), x.2) := Prod.ext hd.symm rfl
        exact hx' ▸ .grant x.2 a.1 a.2.2.1 a.2.1 stream' response' hfits hstream'
          (grants_of_answer hresponse')

/-- What a message of a client does to the server, and what is written. -/
theorem step_data (origin : TcpStream → τ) (env : Env) {token : Token} {stream : TcpStream}
    {data : Message} {p : ProcId} {t : RequestType} {k : KeyId}
    (hstream : r.server.tokenStreamMap token = some stream)
    (hreq : requestIn Serde.direct data = some (p, t, k)) :
    let s' := (RegistryServer.step Serde.direct r.server (.readable env token (.data data))).1
    let tracked := r.track s' (origin stream) k
    let channel := r.channel ++ tracked.2.map Prod.fst
    (r.step origin (.readable env token (.data data))).1
      = ⟨s', tracked.1,
        channel.drop (channel.length - s'.accessManager.accessGranted.buffer.length)⟩ ∧
    (r.step origin (.readable env token (.data data))).2.attributed
      = attribution (origin stream) (writtenBy Serde.direct r.server env token data)
        (recipients r.server (batchOf Serde.direct r.server env data) channel) := by
  unfold step
  simp only [hstream, hreq]
  exact ⟨trivial, rfl⟩

/-- **Nothing is left out**: each message that a step writes for a request has an origin. -/
theorem step_attributes (r : Tracked τ) (origin : TcpStream → τ) (env : Env) {token : Token}
    {stream : TcpStream} {data : Message} (hstream : r.server.tokenStreamMap token = some stream) :
    (r.step origin (.readable env token (.data data))).2.attributed.map Prod.fst
      = (r.step origin (.readable env token (.data data))).2.written := by
  unfold step
  simp only [hstream]
  generalize List.flatMap Served.written _ = written
  cases written with
  | nil => rfl
  | cons answer late =>
      rw [attribution, List.map_cons, ascribe_fst]

/-- **A request keeps the origins**, and each message written goes back to one of them. -/
theorem Traced.request (h : r.Traced fits) (origin : TcpStream → τ) (env : Env) {token : Token}
    {stream : TcpStream} (hbackup : token ≠ r.server.backupToken)
    (hstream : r.server.tokenStreamMap token = some stream) {p : ProcId} {t : RequestType}
    {k : KeyId} (hfits : fits (origin stream) p t k) :
    let r' := r.step origin (.readable env token (.data (.registry (.request p t k))))
    r'.1.Traced fits ∧ r'.1.server.tokenStreamMap = r.server.tokenStreamMap ∧
    ∀ x ∈ r'.2.attributed, Goes fits r.server stream t k (origin stream) x := by
  have hwritten := writtenBy_request h.valid h.grants env hbackup hstream p t k
  obtain ⟨data, hdata⟩ : ∃ data : Message, data = .registry (.request p t k) := ⟨_, rfl⟩
  rw [← hdata] at hwritten ⊢
  have hreq : requestIn Serde.direct data = some (p, t, k) := by rw [hdata]; rfl
  obtain ⟨out, messages, o', heffect, hrun⟩ := callOf_effect h.valid env.iter p t k
  have hlock : lockEffect Serde.direct env data r.server.accessManager
      = r.server.accessManager.after k messages o' :=
    (lockEffect_request Serde.direct env hreq _).trans (congrArg Prod.snd hrun)
  have hvalid := step_valid Serde.direct h.valid (.readable env token (.data data))
  obtain ⟨hs', hmanager⟩ := (step_readable Serde.direct env r.server token (.data data)).served
    (by rw [hstream]; exact Option.some_ne_none _) hbackup
  obtain ⟨hstate, hattributed⟩ := step_data (r := r) origin env hstream hreq
  dsimp only at hstate hattributed ⊢
  rw [hstate, hattributed]
  generalize (RegistryServer.step Serde.direct r.server (.readable env token (.data data))).1 = s'
    at hvalid hs' hmanager ⊢
  have hkeys : s'.accessManager.keyStates
      = Function.update r.server.accessManager.keyStates k o' := by
    rcases hmanager with hm | hm <;> rw [hm, hlock] <;> rfl
  have hqueue : queue s' k = queueOf o' := by simp [queue, hkeys]
  obtain ⟨harrivals, hothers, hsent⟩ := h.track hfits heffect rfl hqueue
  -- the channel while the step goes on
  have hchannel : List.Forall₂ (fun (a : AccessGranted) o => fits o a.1 a.2.2.1 a.2.1)
      (batchOf Serde.direct r.server env data)
      (r.channel ++ (r.track s' (origin stream) k).2.map Prod.fst) := by
    rw [batchOf, hlock]
    exact List.rel_append h.channel hsent
  refine ⟨⟨hvalid, ?_, fun k' => ?_, ?_⟩, by rw [hs'], attribution_goes hchannel hwritten⟩
  · rcases hmanager with hm | hm
    · exact hm ▸ lockEffect_grantsOnly Serde.direct h.valid h.grants env data
    · rw [hm]
      intro a ha
      cases ha
  · -- the request is queued for its own key only
    dsimp only
    by_cases hk' : k' = k
    · subst hk'
      exact harrivals
    · have hsame : queue s' k' = queue r.server k' := by
        simp [queue, hkeys, Function.update_of_ne hk']
      rw [hsame, hothers k' hk']
      exact h.arrivals k'
  · dsimp only
    rcases hmanager with hm | hm
    · -- the batch is still in the channel
      rw [hm, ← batchOf, ← hchannel.length_eq, Nat.sub_self]
      exact hchannel
    · -- the batch is sent, so nothing is in the channel any more
      rw [hm]
      show List.Forall₂ _ [] (List.drop (_ - 0) _)
      rw [Nat.sub_zero, List.drop_length]
      exact .nil

/-- The registry that is asked to stop does nothing else. -/
theorem Traced.stop (h : r.Traced fits) (origin : TcpStream → τ) (env : Env) {token : Token}
    {stream : TcpStream} (hbackup : token ≠ r.server.backupToken)
    (hstream : r.server.tokenStreamMap token = some stream) :
    let r' := r.step origin (.readable env token (.data (.registry .stopRequest)))
    r'.1.Traced fits ∧ r'.1.server.tokenStreamMap = r.server.tokenStreamMap ∧
    r'.2.attributed = [] := by
  have hstep : RegistryServer.step Serde.direct r.server
      (.readable env token (.data (.registry .stopRequest))) = (r.server,
        [⟨.readable env token (.data (.registry .stopRequest)), .err .stopRequest, [], []⟩]) := by
    have hdata := handleData_data Serde.direct env (h := r.server.enter) hbackup
      (hstream ▸ Option.some_ne_none stream) (.registry .stopRequest)
    simp only [RegistryServer.step, Input.handle, hdata]
    rfl
  have hlength := h.channel.length_eq
  unfold step
  have hno : requestIn Serde.direct (Message.registry .stopRequest) = none := rfl
  simp only [hstream, hstep, hno, List.map_nil, List.append_nil]
  rw [hlength, Nat.sub_self]
  exact ⟨h, trivial, rfl⟩

end Tracked

end RegistryServer

end Soros
