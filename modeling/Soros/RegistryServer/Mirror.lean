import Soros.RegistryServer.Answering

set_option autoImplicit false

/-! # The backup mirrors the primary

A primary registry with a secondary one that nobody else uses: after each step of the primary
the secondary handles what the primary has forwarded. The primary changes its key states first
and forwards last, so a request that is stopped in between is lost to the secondary
(`lostRequest_diverges`). As long as no request that changes a key is stopped, the key states
of the two are equal after every step (`mirror_keyStates`). -/

namespace Soros

open AccessManager (Call)

namespace RegistryServer

variable {Bytes : Type} (serde : Serde Bytes)

/-- The primary registry and its backup. -/
structure Mirror where
  primary : RegistryServer
  secondary : RegistryServer

namespace Mirror

/-- A step of the primary registry, and how the system calls of the secondary one end when it
handles what is forwarded in this step. -/
structure Input (Bytes : Type) where
  input : RegistryServer.Input Bytes
  backupEnv : Env

/-- The secondary registry reads a message on the connection of the primary one. -/
def receive (env : Env) (s : RegistryServer) (data : Bytes) : RegistryServer :=
  (RegistryServer.step serde s (.readable env s.primaryToken (.data data))).1

def step (m : Mirror) (i : Input Bytes) : Mirror × List (Served Bytes) :=
  let r := RegistryServer.step serde m.primary i.input
  (⟨r.1, (r.2.flatMap Served.forwarded).foldl (receive serde i.backupEnv) m.secondary⟩, r.2)

/-- The secondary registry has accepted the connection of the primary one, and nothing else
has happened. -/
def start (secondaryServer : SocketAddr × TcpStream) (link : TcpStream) : Mirror where
  primary := new (some secondaryServer)
  secondary := { new none with
    firstConnection := false
    tokenStreamMap := Function.update (fun _ => none) 1000 (some link) }

def machine (secondaryServer : SocketAddr × TcpStream) (link : TcpStream) :
    IOMachine Mirror (Input Bytes) (Served Bytes) where
  start := start secondaryServer link
  step := step serde

/-- The key states of the two registries are equal. -/
def Agrees (m : Mirror) : Prop :=
  m.secondary.accessManager.keyStates = m.primary.accessManager.keyStates

/-- The forward succeeds if it is attempted. -/
def ForwardSucceeds (_ : Mirror) (i : Input Bytes) : Prop :=
  match i.input with
  | .connection env _ _ => env.backupWrite = none
  | .readable env _ _ => env.backupWrite = none

/-- Nothing stops `handle_request` between the call of the access manager and the forward: the
writes to clients succeed, and whoever is named as a holder has a known address. -/
structure Unhindered (s : RegistryServer) (env : Env) (c : Call) : Prop where
  writes : Open env s
  holder : ∀ holder, ((c.invoke env.iter).run s.accessManager).1 = .ok (some holder) →
    (s.tokenAddrMap holder).isSome
  grants : ∀ a ∈ ((c.invoke env.iter).run s.accessManager).2.accessGranted.buffer,
    (grantAnswer s a).isSome

/-- A request that changes the key states of the primary registry is unhindered. -/
def Carried (m : Mirror) (i : Input Bytes) : Prop :=
  match i.input with
  | .readable env _ (.data data) => ∀ p t k, requestIn serde data = some (p, t, k) →
      (lockEffect serde env data m.primary.accessManager).keyStates
        ≠ m.primary.accessManager.keyStates →
      Unhindered m.primary env (callOf p t k)
  | _ => True

/-! ## A request lost -/

/-- The client `1` creates a key, and its socket breaks before it is answered. -/
def lostRequest : List (Input Message) :=
  [⟨.connection (Env.calm .ascending) 11 ⟨"127.0.0.1", 4001⟩, Env.calm .ascending⟩,
    ⟨.readable { Env.calm .ascending with
        clientWrite := fun _ _ => some ⟨.other, "Broken pipe (os error 32)"⟩ } 1
      (.data (.registry (.request 1 .create 0))), Env.calm .ascending⟩]

/-- The primary registry has the key and the secondary one does not. -/
theorem lostRequest_diverges :
    ¬ ∀ inputs : List (Input Message),
      (machine Serde.direct (⟨"127.0.0.1", 8889⟩, 7) 10).Along ForwardSucceeds
        (start (⟨"127.0.0.1", 8889⟩, 7) 10) inputs →
      Agrees ((machine Serde.direct (⟨"127.0.0.1", 8889⟩, 7) 10).run inputs).1 := by
  intro h
  have hagrees := h lostRequest ⟨rfl, rfl, trivial⟩
  have hkey := congrFun hagrees 0
  exact absurd hkey (by decide)

/-! ## The key states agree -/

/-- Equal key states stay equal under equal messages, whatever else differs. -/
theorem lockEffect_congr {m m' : AccessManager} (hv : m.Valid) (hv' : m'.Valid)
    (h : m'.keyStates = m.keyStates) (env env' : Env) (data : Bytes) :
    (lockEffect serde env' data m').keyStates = (lockEffect serde env data m).keyStates := by
  unfold lockEffect
  cases requestIn serde data with
  | none => exact h
  | some r =>
      obtain ⟨p, t, k⟩ := r
      obtain ⟨messages, o', hmakes⟩ := AccessManager.invoke_spec (hv.fair (callOf p t k).key)
        (callOf p t k)
      obtain ⟨_, -, hm⟩ := hmakes env.iter
      obtain ⟨_, -, hm'⟩ := hmakes env'.iter
      dsimp only
      rw [hm m hv.connected rfl, hm' m' hv'.connected (congrFun h _)]
      simp [AccessManager.after, h]

/-- What connects the two registries in every state reached. -/
structure Linked (m : Mirror) : Prop where
  primaryValid : m.primary.accessManager.Valid
  secondaryValid : m.secondary.accessManager.Valid
  backup : m.primary.backupStream.isSome
  link : m.secondary.tokenStreamMap m.secondary.primaryToken ≠ none
  tokens : m.secondary.primaryToken ≠ m.secondary.backupToken
  agrees : Agrees m

theorem start_linked (secondaryServer : SocketAddr × TcpStream) (link : TcpStream) :
    Linked (start secondaryServer link) where
  primaryValid := AccessManager.valid_new
  secondaryValid := AccessManager.valid_new
  backup := rfl
  link := by simp [start, new]
  tokens := by simp [start, new]
  agrees := rfl

/-- The secondary registry makes the call it is sent, and keeps the connection. -/
theorem receive_spec {s : RegistryServer} (hlink : s.tokenStreamMap s.primaryToken ≠ none)
    (htokens : s.primaryToken ≠ s.backupToken) (env : Env) (data : Bytes) :
    (receive serde env s data).accessManager.keyStates
      = (lockEffect serde env data s.accessManager).keyStates ∧
    (receive serde env s data).tokenStreamMap = s.tokenStreamMap ∧
    (receive serde env s data).primaryToken = s.primaryToken ∧
    (receive serde env s data).backupToken = s.backupToken := by
  obtain ⟨hs', hmanager⟩ :=
    (step_readable serde env s s.primaryToken (.data data)).served hlink htokens
  unfold receive
  generalize (RegistryServer.step serde s (.readable env s.primaryToken (.data data))).1 = s'
    at hs' hmanager ⊢
  exact ⟨keyStates_drained hmanager, by rw [hs'], by rw [hs'], by rw [hs']⟩

theorem Linked.receive {m : Mirror} (h : Linked m) {s : RegistryServer} {env : Env} (env' : Env)
    {data : Bytes} (hv : s.accessManager.Valid) (hbackup : s.backupStream.isSome)
    (hkeys : s.accessManager.keyStates
      = (lockEffect serde env data m.primary.accessManager).keyStates) :
    Linked ⟨s, Mirror.receive serde env' m.secondary data⟩ := by
  obtain ⟨hreceived, hstream, hprimary, hbackup'⟩ := receive_spec serde h.link h.tokens env' data
  refine ⟨hv, RegistryServer.step_valid serde h.secondaryValid _, hbackup, ?_, ?_, ?_⟩
  · rw [hprimary, hstream]
    exact h.link
  · rw [hprimary, hbackup']
    exact h.tokens
  · exact (hreceived.trans (lockEffect_congr serde h.primaryValid h.secondaryValid h.agrees env env'
      data)).trans hkeys.symm

/-- A request that changes the key states and is unhindered is forwarded. -/
theorem forwarded_of_unhindered {s : RegistryServer} (hv : s.accessManager.Valid)
    (hbackup : s.backupStream.isSome) {env : Env} {token : Token} {data : Bytes} {p : ProcId}
    {t : RequestType} {k : KeyId} (hsucceeds : env.backupWrite = none)
    (htoken : token ≠ s.backupToken) (hstream : s.tokenStreamMap token ≠ none)
    (hreq : requestIn serde data = some (p, t, k))
    (hchange : (lockEffect serde env data s.accessManager).keyStates ≠ s.accessManager.keyStates)
    (h : Unhindered s env (callOf p t k)) :
    ((handleData serde env token (.data data)).run s.enter).2.forwarded = [data] := by
  have heffect : lockEffect serde env data s.accessManager
      = (((callOf p t k).invoke env.iter).run s.accessManager).2 :=
    lockEffect_request serde env hreq _
  have hanswer : ∃ response, s.answer t k
      (((callOf p t k).invoke env.iter).run s.accessManager).1 = .ok response := by
    obtain ⟨out, messages, o', hcall, hrun⟩ := AccessManager.invoke_effect hv env.iter
      (callOf p t k)
    have hholder := h.holder
    rw [heffect, hrun] at hchange
    rw [hrun] at hholder ⊢
    generalize ho : s.accessManager.keyStates (callOf p t k).key = o at hcall
    obtain ⟨result, hreply, hanswer⟩ := Reply.of_effect s hcall
    rw [hanswer]
    cases result with
    | ok response => exact ⟨response, rfl⟩
    | error e =>
        exfalso
        cases hreply with
        | refused => exact hchange (by rw [AccessManager.after_self ho])
        | unknown _ _ holder _ _ haddr =>
            have hknown := hholder holder (answer_unknownHolder hanswer)
            simp [haddr] at hknown
  obtain ⟨response, hresponse⟩ := hanswer
  obtain ⟨stream, hsome⟩ := Option.ne_none_iff_exists'.1 hstream
  have hgrants : ∀ a ∈ (lockEffect serde env data s.accessManager).accessGranted.buffer,
      (grantAnswer s a).isSome := by
    rw [heffect]
    exact h.grants
  have hrun := serveRequest_run serde (h := s.enter) hreq hresponse h.writes hsucceeds hsome
    hgrants
  rw [handleData_data serde env (h := s.enter) htoken hstream, hrun]
  show [] ++ (if s.backupStream.isSome then [data] else []) = [data]
  rw [if_pos hbackup]
  rfl

theorem step_eq (m : Mirror) (i : Input Bytes) :
    (Mirror.step serde m i).1 = ⟨(RegistryServer.step serde m.primary i.input).1,
      ((i.input.handle serde).run m.primary.enter).2.forwarded.foldl (receive serde i.backupEnv)
        m.secondary⟩ := by
  simp [Mirror.step, RegistryServer.step]

theorem Linked.primary {m : Mirror} (h : Linked m) {s : RegistryServer}
    (hv : s.accessManager.Valid) (hbackup : s.backupStream = m.primary.backupStream)
    (hkeys : s.accessManager.keyStates = m.primary.accessManager.keyStates) :
    Linked ⟨s, m.secondary⟩ :=
  ⟨hv, h.secondaryValid, hbackup ▸ h.backup, h.link, h.tokens, h.agrees.trans hkeys.symm⟩

theorem step_connection_linked {m : Mirror} (h : Linked m) (env backupEnv : Env)
    (stream : TcpStream) (addr : SocketAddr) :
    Linked (Mirror.step serde m ⟨.connection env stream addr, backupEnv⟩).1 := by
  have hv := RegistryServer.step_valid serde h.primaryValid (.connection env stream addr)
  have haccepted := step_accepted serde env m.primary stream addr
  have hforwarded := handleConnection_forwarded serde env stream addr m.primary.enter
  rw [step_eq]
  dsimp only [Input.handle]
  rcases hforwarded with hno | hone
  · rw [hno]
    exact h.primary hv haccepted.backupStream (by rw [haccepted.manager])
  · rw [hone]
    have hkeys : (RegistryServer.step serde m.primary
          (.connection env stream addr)).1.accessManager.keyStates
        = (lockEffect serde env (serde.toVec
            (.registry (.connectionEstablished (m.primary.idCounter + 1))))
            m.primary.accessManager).keyStates := by
      rw [haccepted.manager, lockEffect, requestIn, serde.fromSlice_toVec]
    exact h.receive serde backupEnv hv (haccepted.backupStream ▸ h.backup) hkeys

theorem step_readable_linked {m : Mirror} (h : Linked m) {env : Env} (backupEnv : Env)
    {token : Token} {read : ReadResult Bytes} (hsucceeds : env.backupWrite = none)
    (hcarried : Carried serde m ⟨.readable env token read, backupEnv⟩) :
    Linked (Mirror.step serde m ⟨.readable env token read, backupEnv⟩).1 := by
  have hv := RegistryServer.step_valid serde h.primaryValid (.readable env token read)
  have hreadable := step_readable serde env m.primary token read
  have hforwarded := handleData_forwarded serde env token read m.primary.enter
  rw [step_eq]
  dsimp only [Input.handle] at hforwarded ⊢
  generalize (RegistryServer.step serde m.primary (.readable env token read)).1 = s'
    at hv hreadable ⊢
  cases hreadable with
  | idle _ hidle =>
      -- what is forwarded has been read from a client, and served
      rcases hforwarded with hno | ⟨data, rfl, htoken, hstream, -⟩
      · rw [hno]
        exact h.primary hv rfl rfl
      · rcases hidle with hidle | hidle | ⟨e, he, -⟩
        · exact absurd hidle htoken
        · exact absurd hidle hstream
        · cases he
  | gone _ hends =>
      rcases hforwarded with hno | ⟨data, rfl, -⟩
      · rw [hno]
        exact h.primary hv rfl rfl
      · exact hends.elim
  | request data _ hstream htoken hs' hmanager =>
      have hkeys : s'.accessManager.keyStates
          = (lockEffect serde env data m.primary.accessManager).keyStates :=
        keyStates_drained hmanager
      rcases hforwarded with hno | ⟨data', hdata, -, -, hone⟩
      · -- not forwarded: then the request has changed nothing
        rw [hno]
        refine h.primary hv (by rw [hs']) (hkeys.trans ?_)
        by_contra hchange
        cases hreq : requestIn serde data with
        | none => simp [lockEffect, hreq] at hchange
        | some r =>
            obtain ⟨p, t, k⟩ := r
            have hone := forwarded_of_unhindered serde h.primaryValid h.backup hsucceeds htoken
              hstream hreq hchange (hcarried p t k hreq hchange)
            rw [hno] at hone
            cases hone
      · cases hdata
        rw [hone]
        exact h.receive serde backupEnv hv (by rw [hs']; exact h.backup) hkeys

/-- **The backup mirrors the primary** in every run in which no request that changes a key is
stopped between the call of the access manager and the forward. -/
theorem mirror_keyStates (secondaryServer : SocketAddr × TcpStream) (link : TcpStream)
    (inputs : List (Input Bytes))
    (h : (machine serde secondaryServer link).Along
      (fun m i => ForwardSucceeds m i ∧ Carried serde m i) (start secondaryServer link) inputs) :
    Agrees ((machine serde secondaryServer link).run inputs).1 := by
  have hlinked := IOMachine.run_induction_along (M := machine serde secondaryServer link)
    (fun m _ => Linked m) (start_linked secondaryServer link) ?_ inputs h
  · exact hlinked.agrees
  · rintro m - ⟨i, backupEnv⟩ ⟨hsucceeds, hcarried⟩ hm
    cases i with
    | connection env stream addr => exact step_connection_linked serde hm env backupEnv stream addr
    | readable env token read => exact step_readable_linked serde hm backupEnv hsucceeds hcarried

/-- A client creates a key, and nothing stops the request. -/
theorem mirror_keyStates_created :
    Agrees ((machine Serde.direct (⟨"127.0.0.1", 8889⟩, 7) 10).run
      [⟨.connection (Env.calm .ascending) 11 ⟨"127.0.0.1", 4001⟩, Env.calm .ascending⟩,
        ⟨.readable (Env.calm .ascending) 1 (.data (.registry (.request 1 .create 0))),
          Env.calm .ascending⟩]).1 := by
  refine mirror_keyStates Serde.direct (⟨"127.0.0.1", 8889⟩, 7) 10 _
    ⟨⟨rfl, trivial⟩, ⟨rfl, ?_⟩, trivial⟩
  rintro p t k hreq -
  cases hreq
  refine ⟨fun _ _ _ _ => rfl, fun holder hholder => ?_, by decide⟩
  have hnone : (.ok none : Outcome AccessManagerError (Option ProcId)) = .ok (some holder) := hholder
  cases hnone

end Mirror

end RegistryServer

end Soros
