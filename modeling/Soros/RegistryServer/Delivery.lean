import Soros.RegistryServer.Courses

set_option autoImplicit false

/-! # Which answers and grants are written

A client should get one answer to each request, and a process that is let in should be told so.
Both fail when something goes wrong between the answer and the forward: the client is answered
again (`brokenWaiter_answersTwice`), and the accesses that have not been dealt with are lost
(`brokenReleaser_swallowsGrant`). `answeredOnce_iff` and `grantsSent_iff` say exactly when. -/

namespace Soros

open AccessManager (Call)

namespace RegistryServer

variable {Bytes : Type} (serde : Serde Bytes)

/-! ## What is in the channel -/

theorem effect_grantsOnly {c : Call} {o o' : Option KeyState}
    {out : Outcome AccessManagerError (Option ProcId)} {messages : List AccessGranted}
    (h : AccessManager.Effect c o out messages o') : GrantsOnly messages := by
  intro a ha
  cases h with
  | release k l c p =>
      obtain ⟨⟨q, m⟩, -, rfl⟩ := List.mem_map.1 ha
      cases m with
      | read => exact Or.inl rfl
      | write => exact Or.inr rfl
  | missing | present | create | busy | delete | read | write | wait | unheld => cases ha

theorem lockEffect_grantsOnly {m : AccessManager} (hv : m.Valid)
    (h : GrantsOnly m.accessGranted.buffer) (env : Env) (data : Bytes) :
    GrantsOnly (lockEffect serde env data m).accessGranted.buffer := by
  unfold lockEffect
  cases requestIn serde data with
  | none => exact h
  | some r =>
      obtain ⟨p, t, k⟩ := r
      obtain ⟨out, messages, o', heffect, hrun⟩ := AccessManager.invoke_effect hv env.iter
        (callOf p t k)
      dsimp only
      rw [hrun]
      intro a ha
      rcases List.mem_append.1 ha with ha | ha
      · exact h a ha
      · exact effect_grantsOnly heffect a ha

/-- The access manager is valid, and the channel holds grants only. -/
def Orderly (s : RegistryServer) : Prop :=
  s.accessManager.Valid ∧ GrantsOnly s.accessManager.accessGranted.buffer

theorem new_orderly (secondaryServer : Option (SocketAddr × TcpStream)) :
    (new secondaryServer).Orderly :=
  ⟨AccessManager.valid_new, by intro a ha; cases ha⟩

theorem step_orderly {s : RegistryServer} (hs : s.Orderly) (i : Input Bytes) :
    (step serde s i).1.Orderly := by
  obtain ⟨hv, honly⟩ := hs
  refine ⟨step_valid serde hv i, ?_⟩
  cases i with
  | connection env stream addr =>
      rw [(step_accepted serde env s stream addr).manager]
      exact honly
  | readable env token read =>
      have hreadable := step_readable serde env s token read
      generalize (step serde s (.readable env token read)).1 = s' at hreadable ⊢
      cases hreadable with
      | idle | gone => exact honly
      | request data _ _ _ _ hmanager =>
          rcases hmanager with hm | hm
          · rw [hm]
            exact lockEffect_grantsOnly serde hv honly env data
          · rw [hm]
            intro a ha
            cases ha

/-- In every state reached the access manager is valid, and the channel holds grants only. -/
theorem run_grantsOnly (secondaryServer : Option (SocketAddr × TcpStream))
    (inputs : List (Input Bytes)) :
    ((machine serde secondaryServer).run inputs).1.accessManager.Valid ∧
    GrantsOnly ((machine serde secondaryServer).run inputs).1.accessManager.accessGranted.buffer :=
  IOMachine.run_invariant (M := machine serde secondaryServer) Orderly (new_orderly secondaryServer)
    (fun _ i hs => step_orderly serde hs i) inputs

/-! ## A release whose step may fail -/

/-- Two clients, after the primary registry has connected: the first writes a key, the second
waits for it. -/
def waitingInputs : List (Input Message) :=
  [.connection (Env.calm .ascending) 10 ⟨"127.0.0.1", 8888⟩,
    .connection (Env.calm .ascending) 11 ⟨"127.0.0.1", 4001⟩,
    .connection (Env.calm .ascending) 12 ⟨"127.0.0.1", 4002⟩,
    .readable (Env.calm .ascending) 1 (.data (.registry (.request 1 .create 0))),
    .readable (Env.calm .ascending) 1 (.data (.registry (.request 1 .write 0))),
    .readable (Env.calm .ascending) 2 (.data (.registry (.request 2 .write 0)))]

/-- Every write to the socket fails, and every other call succeeds. -/
def brokenOn (socket : TcpStream) : Env :=
  { Env.calm .ascending with
    clientWrite := fun stream _ =>
      if stream = socket then some ⟨.other, "Broken pipe (os error 32)"⟩ else none }

/-! ## One answer to each request -/

/-- The answer to a message: what `handle_message` returns, or the error. -/
def AnswerTo (response : RegistryResponse) : Outcome RegistryServerError RegistryResponse → Prop
  | .ok r => response = r
  | .err e => response = .error e.text
  | _ => False

/-- On the connection of the client there is one answer, and after it only grants. -/
def AnsweredOnce (s : RegistryServer) (env : Env) (token : Token) (stream : TcpStream)
    (data : Bytes) (message : Message) : Prop :=
  ∃ response rest,
    (writtenBy serde s env token data).filter (fun w => w.1 == stream)
      = (stream, encode serde response) :: rest ∧
    AnswerTo response (result serde s env message) ∧
    ∀ w ∈ rest, ∃ a ∈ batchOf serde s env data, delivery serde s a = some w

/-- Nothing fails after the answer to a request that is not refused, or the error cannot be
written either. -/
def Undisturbed (s : RegistryServer) (env : Env) (stream : TcpStream) (data : Bytes)
    (message : Message) : Prop :=
  ∀ response, result serde s env message = .ok response →
    ∀ dealt n, Course env s (batchOf serde s env data) dealt (some n) →
      env.clientWrite stream n ≠ none

theorem encode_injective : Function.Injective (encode serde) := by
  intro response response' h
  have hmessage := congrArg serde.fromSlice h
  rw [encode, encode, serde.fromSlice_toVec, serde.fromSlice_toVec] at hmessage
  simpa using hmessage

theorem grants_of_answer {s : RegistryServer} {a : AccessGranted} {response : RegistryResponse}
    (h : grantAnswer s a = some response) : Grants a.2.1 a.2.2.1 response := by
  obtain ⟨p, k, t, holder⟩ := a
  cases t with
  | read =>
      obtain ⟨addr, -, rfl⟩ := Option.map_eq_some_iff.1 h
      exact .read addr
  | write =>
      cases h
      exact .write
  | create | delete | release => cases h

theorem grants_ne_error {k : KeyId} {t : RequestType} {response : RegistryResponse} {text : String}
    (h : Grants k t response) : response ≠ .error text := by
  cases h <;> simp

/-- No grant is written like an error. -/
theorem delivery_ne_error {s : RegistryServer} {a : AccessGranted} {stream : TcpStream}
    {text : String} : delivery serde s a ≠ some (stream, encode serde (.error text)) := by
  intro h
  obtain ⟨stream', -, h⟩ := Option.bind_eq_some_iff.1 h
  obtain ⟨response, hresponse, h⟩ := Option.map_eq_some_iff.1 h
  exact grants_ne_error (grants_of_answer hresponse)
    (encode_injective serde (congrArg Prod.snd h))

/-- The client that releases the key is told `Success`, and then of the failure to tell the
other. -/
theorem brokenWaiter_answersTwice :
    ¬ ∀ (inputs : List (Input Message)) (env : Env) (token : Token) (stream : TcpStream)
        (data message : Message),
      token ≠ ((machine Serde.direct none).run inputs).1.backupToken →
      ((machine Serde.direct none).run inputs).1.tokenStreamMap token = some stream →
      Serde.direct.fromSlice data = .ok message → message ≠ .registry .stopRequest →
      env.clientWrite stream 0 = none →
      AnsweredOnce Serde.direct ((machine Serde.direct none).run inputs).1 env token stream data
        message := by
  intro h
  obtain ⟨response, rest, hwritten, -, hrest⟩ := h waitingInputs (brokenOn 12) 1 11
    (.registry (.request 1 .release 0)) _ (by decide) (by decide) rfl (by simp) rfl
  have htwice : (writtenBy Serde.direct ((machine Serde.direct none).run waitingInputs).1
      (brokenOn 12) 1 (.registry (.request 1 .release 0))).filter (fun w => w.1 == 11)
      = [(11, encode Serde.direct (.success 0)),
        (11, encode Serde.direct (.error "IO error: Broken pipe (os error 32)"))] := by decide
  rw [htwice] at hwritten
  obtain ⟨-, rfl⟩ := List.cons.inj hwritten
  obtain ⟨a, -, ha⟩ := hrest _ List.mem_cons_self
  exact delivery_ne_error Serde.direct ha

/-- Every message but `StopRequest` is answered or refused. -/
theorem result_cases {s : RegistryServer} (hv : s.accessManager.Valid) (env : Env)
    {message : Message} (hstop : message ≠ .registry .stopRequest) :
    (∃ response, result serde s env message = .ok response) ∨
    ∃ e, e ≠ .stopRequest ∧ result serde s env message = .err e := by
  cases message with
  | data => exact Or.inr ⟨.unexpectedRequest, by simp, rfl⟩
  | registry message =>
      cases message with
      | stopRequest => exact absurd rfl hstop
      | connection | response => exact Or.inr ⟨.unexpectedRequest, by simp, rfl⟩
      | connectionEstablished => exact Or.inl ⟨.ack, rfl⟩
      | request p t k =>
          obtain ⟨r, messages, o', hreply, hrun⟩ := handleMessage_reply
            (h := (s.enter : Host Bytes)) hv env p t k
          have hresult : result serde s env (.registry (.request p t k)) = .ofExcept r :=
            congrArg Prod.fst hrun
          cases r with
          | ok response => exact Or.inl ⟨response, hresult⟩
          | error e => exact Or.inr ⟨e, hreply.error.1, hresult⟩

/-- **One request, one direct answer**, exactly if nothing fails after the answer, or the second
answer cannot be written. -/
theorem answeredOnce_iff (secondaryServer : Option (SocketAddr × TcpStream))
    (inputs : List (Input Bytes)) (env : Env) (token : Token) (stream : TcpStream) (data : Bytes)
    (message : Message)
    (hbackup : token ≠ ((machine serde secondaryServer).run inputs).1.backupToken)
    (hstream : ((machine serde secondaryServer).run inputs).1.tokenStreamMap token = some stream)
    (hparse : serde.fromSlice data = .ok message) (hstop : message ≠ .registry .stopRequest)
    (hwrite : env.clientWrite stream 0 = none) :
    AnsweredOnce serde ((machine serde secondaryServer).run inputs).1 env token stream data message ↔
    Undisturbed serde ((machine serde secondaryServer).run inputs).1 env stream data message := by
  obtain ⟨hv, honly⟩ := run_grantsOnly serde secondaryServer inputs
  generalize ((machine serde secondaryServer).run inputs).1 = s at hbackup hstream hv honly ⊢
  have hbatch : GrantsOnly (batchOf serde s env data) := lockEffect_grantsOnly serde hv honly env data
  rcases result_cases serde hv env hstop with ⟨response, hok⟩ | ⟨e, hne, herr⟩
  · -- accepted: after the answer come grants, and an error if something fails
    have hfilter : ∀ dealt answers : List (TcpStream × Bytes),
        ((stream, encode serde response) :: dealt ++ answers).filter (fun w => w.1 == stream)
          = (stream, encode serde response)
            :: (dealt ++ answers).filter (fun w => w.1 == stream) := by
      intro dealt answers
      rw [List.cons_append, List.filter_cons_of_pos (by simp)]
    constructor
    -- a second answer would be an error, which is no delivery
    · rintro ⟨response', rest, hwritten, -, hrest⟩ response'' - dealt n hcourse hlate
      obtain ⟨answers, hcourse', hall, hsome⟩ := writtenBy_course serde hbackup hstream hparse hok
        hwrite hbatch hcourse
      obtain ⟨w, hw⟩ := List.exists_mem_of_ne_nil answers (hsome.2 ⟨n, rfl, hlate⟩)
      obtain ⟨text, rfl⟩ := hall w hw
      rw [hcourse', hfilter] at hwritten
      obtain ⟨-, rfl⟩ := List.cons.inj hwritten
      obtain ⟨a, -, ha⟩ := hrest _ (List.mem_filter.2 ⟨List.mem_append_right _ hw, by simp⟩)
      exact delivery_ne_error serde ha
    · intro hundisturbed
      obtain ⟨dealt, late, hcourse⟩ := exists_course env s (batchOf serde s env data)
      obtain ⟨answers, hwritten, -, hsome⟩ := writtenBy_course serde hbackup hstream hparse hok
        hwrite hbatch hcourse
      have hnone : answers = [] := by
        by_contra hne
        obtain ⟨n, rfl, hlate⟩ := hsome.1 hne
        exact hundisturbed response hok dealt n hcourse hlate
      refine ⟨response, _, by rw [hwritten, hfilter], by rw [hok]; rfl, fun w hw => ?_⟩
      rw [hnone, List.append_nil] at hw
      obtain ⟨a, ha, hdelivery⟩ := List.mem_filterMap.1 (List.mem_of_mem_filter hw)
      obtain ⟨untouched, hbatch⟩ := hcourse.dealt_prefix
      exact ⟨a, hbatch ▸ List.mem_append_left untouched ha, hdelivery⟩
  · -- refused: the error is the only answer
    obtain ⟨hall, hsome, hlength⟩ := writtenBy_refused serde hbackup hstream hparse herr hne
    have hone : writtenBy serde s env token data = [(stream, encode serde (.error e.text))] := by
      match hw : writtenBy serde s env token data with
      | [] => exact absurd hw (hsome.2 hwrite)
      | [w] => rw [hall w (by simp [hw])]
      | _ :: _ :: _ => simp [hw] at hlength
    constructor
    · intro _ response hok
      rw [herr] at hok
      cases hok
    · intro _
      exact ⟨.error e.text, [], by rw [hone]; simp, by rw [herr]; rfl, by simp⟩

/-- Nothing fails: the client that releases the key gets one answer, and the other its grant. -/
theorem answeredOnce_released :
    AnsweredOnce Serde.direct ((machine Serde.direct none).run waitingInputs).1 (Env.calm .ascending)
      1 11 (.registry (.request 1 .release 0)) (.registry (.request 1 .release 0)) ∧
    writtenBy Serde.direct ((machine Serde.direct none).run waitingInputs).1 (Env.calm .ascending) 1
        (.registry (.request 1 .release 0))
      = [(11, encode Serde.direct (.success 0)), (12, encode Serde.direct (.success 0))] := by
  refine ⟨(answeredOnce_iff Serde.direct none waitingInputs (Env.calm .ascending) 1 11
    (.registry (.request 1 .release 0)) (.registry (.request 1 .release 0)) (by decide) (by decide)
    rfl (by simp) rfl).2 fun response hresult dealt n hcourse => ?_, by decide⟩
  have hbatch : batchOf Serde.direct ((machine Serde.direct none).run waitingInputs).1
      (Env.calm .ascending) (.registry (.request 1 .release 0)) = [(2, 0, .write, 1)] := by decide
  rw [hbatch] at hcourse
  cases hcourse with
  | forward hclear hconnected hforward => exact absurd rfl hforward
  | stops dealt rest a hstops hclear ha =>
      have hmem : a ∈ [((2, 0, .write, 1) : AccessGranted)] := hstops ▸ by simp
      obtain rfl := List.mem_singleton.1 hmem
      exact absurd ⟨rfl, fun _ _ => rfl⟩ ha

/-! ## Every grant is sent -/

/-- A process is connected, and a write to its socket succeeds in its turn. -/
def Writable (env : Env) (s : RegistryServer) (n : Nat) (p : ProcId) : Prop :=
  ∃ stream ∈ s.tokenStreamMap p, env.clientWrite stream n = none

instance (env : Env) (s : RegistryServer) (n : Nat) (p : ProcId) :
    Decidable (Writable env s n p) :=
  inferInstanceAs (Decidable (∃ stream ∈ s.tokenStreamMap p, env.clientWrite stream n = none))

/-- How many of the accesses of a batch should be written: those of processes to which a write
succeeds, each in its turn. -/
def due (env : Env) (s : RegistryServer) : Nat → List AccessGranted → Nat
  | _, [] => 0
  | n, a :: batch =>
      (if Writable env s n a.1 then 1 else 0) + due env s (n + writesFor s [a]) batch

/-- The grant `a` is one that the request has put into the channel, behind the accesses
`earlier`; its process is connected, and the write to its socket, which comes after the answer
and the writes for these, succeeds. -/
structure NewGrant (s : RegistryServer) (env : Env) (data : Bytes) (earlier : List AccessGranted)
    (a : AccessGranted) (stream : TcpStream) : Prop where
  sent : ∃ before after,
    s.accessManager.sentSince (lockEffect serde env data s.accessManager) = before ++ a :: after ∧
    earlier = s.accessManager.accessGranted.buffer ++ before
  connected : s.tokenStreamMap a.1 = some stream
  writable : env.clientWrite stream (1 + writesFor s earlier) = none

/-- Every such grant is written in its place, after the answer. -/
def GrantsSent (s : RegistryServer) (env : Env) (token : Token) (data : Bytes) : Prop :=
  ∀ earlier a stream, NewGrant serde s env data earlier a stream →
    ∃ response, Grants a.2.1 a.2.2.1 response ∧
      (writtenBy serde s env token data)[1 + due env s 1 earlier]?
        = some (stream, encode serde response)

/-- When there is such a grant, the answer to the requesting client can be written, and no access
stops the loop up to it. -/
def Unstopped (s : RegistryServer) (env : Env) (requester : TcpStream) (data : Bytes) : Prop :=
  ∀ earlier a stream, NewGrant serde s env data earlier a stream →
    env.clientWrite requester 0 = none ∧ Clear env s 1 (earlier ++ [a])

/-- The socket of the client that releases the key is broken. The other is not told either, though
every write to it would succeed. -/
theorem brokenReleaser_swallowsGrant :
    ¬ ∀ (inputs : List (Input Message)) (env : Env) (token : Token) (stream : TcpStream)
        (data : Message),
      token ≠ ((machine Serde.direct none).run inputs).1.backupToken →
      ((machine Serde.direct none).run inputs).1.tokenStreamMap token = some stream →
      GrantsSent Serde.direct ((machine Serde.direct none).run inputs).1 env token data := by
  intro h
  have hnew : NewGrant Serde.direct ((machine Serde.direct none).run waitingInputs).1 (brokenOn 11)
      (.registry (.request 1 .release 0)) [] (2, 0, .write, 1) 12 :=
    ⟨⟨[], [], by decide, by decide⟩, by decide, rfl⟩
  obtain ⟨response, -, hwritten⟩ := h waitingInputs (brokenOn 11) 1 11
    (.registry (.request 1 .release 0)) (by decide) (by decide) [] (2, 0, .write, 1) 12 hnew
  have hnothing : (writtenBy Serde.direct ((machine Serde.direct none).run waitingInputs).1
      (brokenOn 11) 1 (.registry (.request 1 .release 0)))[1]? = none := by decide
  exact absurd (hnothing.symm.trans hwritten) (by simp)

theorem due_append {env : Env} {s : RegistryServer} {n : Nat} (batch batch' : List AccessGranted) :
    due env s n (batch ++ batch') = due env s n batch + due env s (n + writesFor s batch) batch' := by
  induction batch generalizing n with
  | nil => simp [due, writesFor]
  | cons a batch ih =>
      simp only [List.cons_append, due, ih, writesFor_cons s a batch, Nat.add_assoc]

theorem due_clear {env : Env} {s : RegistryServer} {n : Nat} {batch : List AccessGranted}
    (h : Clear env s n batch) : due env s n batch = writesFor s batch := by
  induction batch generalizing n with
  | nil => rfl
  | cons a batch ih =>
      rw [due, ih h.2, writesFor_cons s a batch]
      cases hstream : s.tokenStreamMap a.1 with
      | none => simp [Writable, hstream, writesFor]
      | some stream => simp [Writable, hstream, h.1.2 stream hstream, writesFor]

/-- The loop gets through what is clear. -/
theorem Course.reaches {env : Env} {s : RegistryServer} {front back dealt : List AccessGranted}
    {late : Option Nat} (h : Course env s (front ++ back) dealt late) (hclear : Clear env s 1 front) :
    ∃ more, dealt = front ++ more := by
  generalize hbatch : front ++ back = batch at h
  cases h with
  | done | forward => exact ⟨back, hbatch.symm⟩
  | stops dealt rest a hstops hdealt ha =>
      rcases List.append_eq_append_iff.1 (hbatch.trans hstops) with ⟨mid, hmid, -⟩ | ⟨mid, hmid, hrest⟩
      · exact ⟨mid, hmid⟩
      · cases mid with
        | nil => exact ⟨[], by rw [hmid]; simp⟩
        | cons b mid =>
            obtain ⟨rfl, -⟩ := List.cons.inj hrest
            rw [hmid, clear_append] at hclear
            exact absurd hclear.2.1 ha

theorem batchOf_eq {s : RegistryServer} (hv : s.accessManager.Valid) (env : Env) (data : Bytes) :
    batchOf serde s env data = s.accessManager.accessGranted.buffer
      ++ s.accessManager.sentSince (lockEffect serde env data s.accessManager) := by
  unfold batchOf lockEffect
  cases requestIn serde data with
  | none => simp
  | some r =>
      obtain ⟨p, t, k⟩ := r
      obtain ⟨out, messages, o', -, hrun⟩ := AccessManager.invoke_effect hv env.iter (callOf p t k)
      dsimp only
      rw [hrun, AccessManager.sentSince_after]
      rfl

/-- No more has been written for accesses than should be when the loop stops. -/
theorem due_of_stops {env : Env} {s : RegistryServer} {dealt rest earlier : List AccessGranted}
    {a b : AccessGranted} (h : earlier ++ [a] = dealt ++ b :: rest) (hdealt : Clear env s 1 dealt) :
    (dealt.filterMap (delivery serde s)).length ≤ due env s 1 earlier := by
  have hfront : ∃ mid, earlier = dealt ++ mid := by
    rcases List.append_eq_append_iff.1 h with ⟨mid, hmid, hrest⟩ | ⟨mid, hmid, -⟩
    · cases mid with
      | nil => exact ⟨[], by simp [hmid]⟩
      | cons c mid => simp at hrest
    · exact ⟨mid, hmid⟩
  obtain ⟨mid, rfl⟩ := hfront
  rw [length_deliveries serde hdealt, due_append, due_clear hdealt]
  exact Nat.le_add_right _ _

/-- Only a request that is not refused puts grants into the channel. -/
theorem NewGrant.accepted {s : RegistryServer} (hv : s.accessManager.Valid) {env : Env}
    {data : Bytes} {earlier : List AccessGranted} {a : AccessGranted} {stream : TcpStream}
    (h : NewGrant serde s env data earlier a stream) :
    ∃ message response, serde.fromSlice data = .ok message ∧
      result serde s env message = .ok response := by
  obtain ⟨before, after, hsent, -⟩ := h.sent
  cases hreq : requestIn serde data with
  | none => simp [lockEffect, hreq] at hsent
  | some r =>
      obtain ⟨p, t, k⟩ := r
      have hparse := fromSlice_request serde hreq
      obtain ⟨r, messages, o', hreply, hrun⟩ := handleMessage_reply (h := (s.enter : Host Bytes)) hv
        env p t k
      have hresult : result serde s env (.registry (.request p t k)) = .ofExcept r :=
        congrArg Prod.fst hrun
      cases r with
      | ok response => exact ⟨_, response, hparse, hresult⟩
      | error e =>
          -- a refused request lets nobody in
          obtain ⟨-, rfl⟩ := hreply.error
          have hstate := handleMessage_lock serde env hparse (s.enter : Host Bytes)
          have hmanager := congrArg (fun h : Host Bytes => h.server.accessManager)
            (hstate.symm.trans (congrArg Prod.snd hrun))
          have hlock : lockEffect serde env data s.accessManager
              = s.accessManager.after k [] o' := hmanager
          rw [hlock, AccessManager.sentSince_after] at hsent
          simp at hsent

/-- **No grant is swallowed**, exactly if nothing stops the loop before the last grant that
should be sent. -/
theorem grantsSent_iff (secondaryServer : Option (SocketAddr × TcpStream))
    (inputs : List (Input Bytes)) (env : Env) (token : Token) (stream : TcpStream) (data : Bytes)
    (hbackup : token ≠ ((machine serde secondaryServer).run inputs).1.backupToken)
    (hstream : ((machine serde secondaryServer).run inputs).1.tokenStreamMap token = some stream) :
    GrantsSent serde ((machine serde secondaryServer).run inputs).1 env token data ↔
    Unstopped serde ((machine serde secondaryServer).run inputs).1 env stream data := by
  obtain ⟨hv, honly⟩ := run_grantsOnly serde secondaryServer inputs
  generalize ((machine serde secondaryServer).run inputs).1 = s at hbackup hstream hv honly ⊢
  have hbatch : GrantsOnly (batchOf serde s env data) := lockEffect_grantsOnly serde hv honly env data
  have hsplit : ∀ {earlier a stream'}, NewGrant serde s env data earlier a stream' →
      ∃ after, batchOf serde s env data = earlier ++ [a] ++ after := by
    rintro earlier a stream' ⟨⟨before, after, hsent, rfl⟩, -, -⟩
    exact ⟨after, by rw [batchOf_eq serde hv, hsent]; simp⟩
  constructor
  · intro hsent earlier a stream' hnew
    obtain ⟨response, hgrants, hwritten⟩ := hsent earlier a stream' hnew
    obtain ⟨message, answer, hparse, hok⟩ := hnew.accepted serde hv
    obtain ⟨after, hafter⟩ := hsplit hnew
    by_cases hwrite : env.clientWrite stream 0 = none
    · refine ⟨hwrite, ?_⟩
      rcases clear_or_stops env s 1 (earlier ++ [a]) with hclear | ⟨dealt, b, rest, hstops, hdealt, hb⟩
      · exact hclear
      · -- the loop has stopped before, and what is written in the place of the grant is an error
        exfalso
        have hcourse : Course env s (batchOf serde s env data) dealt _ :=
          .stops dealt (rest ++ after) b (by rw [hafter, hstops]; simp) hdealt hb
        obtain ⟨answers, hall, herrors, -⟩ := writtenBy_course serde hbackup hstream hparse hok hwrite
          hbatch hcourse
        rw [hall, Nat.add_comm, List.cons_append, List.getElem?_cons_succ,
          List.getElem?_append_right (due_of_stops serde hstops hdealt)] at hwritten
        obtain ⟨text, htext⟩ := herrors _ (List.mem_of_getElem? hwritten)
        exact grants_ne_error hgrants (encode_injective serde (congrArg Prod.snd htext))
    · obtain ⟨-, hlength⟩ := writtenBy_unanswered serde hbackup hstream hparse hok hwrite
      rw [List.getElem?_eq_none (by omega)] at hwritten
      cases hwritten
  · intro hunstopped earlier a stream' hnew
    obtain ⟨hwrite, hclear⟩ := hunstopped earlier a stream' hnew
    obtain ⟨message, answer, hparse, hok⟩ := hnew.accepted serde hv
    obtain ⟨after, hafter⟩ := hsplit hnew
    obtain ⟨dealt, late, hcourse⟩ := exists_course env s (batchOf serde s env data)
    obtain ⟨answers, hall, -, -⟩ := writtenBy_course serde hbackup hstream hparse hok hwrite hbatch
      hcourse
    obtain ⟨more, rfl⟩ := Course.reaches (hafter ▸ hcourse) hclear
    obtain ⟨hearlier, hlast⟩ := clear_append.1 hclear
    obtain ⟨response, hresponse⟩ := Option.isSome_iff_exists.1 hlast.1.1
    have hdelivery : delivery serde s a = some (stream', encode serde response) := by
      simp [delivery, hnew.connected, hresponse]
    refine ⟨response, grants_of_answer hresponse, ?_⟩
    rw [hall, due_clear hearlier, ← length_deliveries serde hearlier, Nat.add_comm, List.cons_append,
      List.getElem?_cons_succ]
    simp [hdelivery]

/-- Nothing fails, and the client that waits is told. -/
theorem grantsSent_calm :
    GrantsSent Serde.direct ((machine Serde.direct none).run waitingInputs).1 (Env.calm .ascending)
      1 (.registry (.request 1 .release 0)) := by
  refine (grantsSent_iff Serde.direct none waitingInputs (Env.calm .ascending) 1 11
    (.registry (.request 1 .release 0)) (by decide) (by decide)).2 ?_
  rintro earlier a stream ⟨⟨before, after, hsent, hearlier⟩, -, -⟩
  have hone : ((machine Serde.direct none).run waitingInputs).1.accessManager.sentSince
      (lockEffect Serde.direct (Env.calm .ascending) (.registry (.request 1 .release 0))
        ((machine Serde.direct none).run waitingInputs).1.accessManager) = [(2, 0, .write, 1)] := by
    decide
  rw [hone] at hsent
  obtain ⟨rfl, rfl⟩ : before = [] ∧ a = (2, 0, .write, 1) := by
    cases before with
    | nil => exact ⟨rfl, (List.cons.inj hsent).1.symm⟩
    | cons b before => simp at hsent
  obtain rfl : earlier = [] := hearlier
  exact ⟨rfl, ⟨rfl, fun _ _ => rfl⟩, trivial⟩

end RegistryServer

end Soros
