import Soros.RegistryServer.Endings

set_option autoImplicit false

/-! # The loop of the server

`bind` logs what goes wrong on a readable socket and goes on, but it passes on every error of
`handle_connection`: a client that is gone before it is greeted, or a dead secondary server,
ends the loop for everybody (`clientLeft_endsLoop`). `survives_iff` lists the steps that do
not. -/

namespace Soros

namespace RegistryServer

variable {Bytes : Type} (serde : Serde Bytes)

/-- Where `bind` stands: in its loop, or it has returned, or its process is no more. -/
inductive Bind where
  | serving (self : RegistryServer)
  | returned (self : RegistryServer) (result : Except RegistryServerError Unit)
  | gone (self : RegistryServer)

/-- What the loop does when a step has ended. -/
def resume (self : RegistryServer) : Input Bytes → Outcome RegistryServerError Unit → Bind
  | _, .ok () => .serving self
  | .connection .., .err e => .returned self (.error e)
  | .readable .., .err .stopRequest => .returned self (.ok ())
  -- the error is logged
  | .readable .., .err _ => .serving self
  | _, .panic _ => .gone self
  | _, .exit _ => .gone self

/-- A socket is registered with the poll under the token. -/
def Registered (s : RegistryServer) (token : Token) : Prop :=
  s.tokenStreamMap token ≠ none ∨ token = s.backupToken ∧ s.backupStream ≠ none

/-- The poll reports sockets that are registered with it. -/
def Reported (s : RegistryServer) : Input Bytes → Prop
  | .connection .. => True
  | .readable _ token _ => s.Registered token

instance (s : RegistryServer) (i : Input Bytes) : Decidable (s.Reported i) := by
  unfold Reported Registered
  cases i <;> infer_instance

/-- One turn of the loop. -/
structure Turn (Bytes : Type) where
  before : RegistryServer
  input : Input Bytes
  outcome : Outcome RegistryServerError Unit
  next : Bind

def turn (b : Bind) (i : Input Bytes) : Bind × List (Turn Bytes) :=
  match b with
  | .serving self =>
      if self.Reported i then
        let r := (i.handle serde).run self.enter
        (resume r.2.server i r.1, [⟨self, i, r.1, resume r.2.server i r.1⟩])
      else (b, [])
  | b => (b, [])

/-- `bind`, once the listener is bound. -/
def bind (secondaryServer : Option (SocketAddr × TcpStream)) :
    IOMachine Bind (Input Bytes) (Turn Bytes) where
  start := .serving (new secondaryServer)
  step := turn serde

def Input.env : Input Bytes → Env
  | .connection env _ _ => env
  | .readable env _ _ => env

namespace Turn

variable (t : Turn Bytes)

/-- The client whose connection the turn is about; none if it is the secondary server. -/
def client : Option Token :=
  match t.input with
  | .connection .. => some t.before.nextToken
  | .readable _ token _ => if token = t.before.backupToken then none else some token

/-- A `StopRequest` of a client has been handled. -/
def Stops : Prop :=
  ∃ env token data, t.input = .readable env token (.data data) ∧ token ≠ t.before.backupToken ∧
    serde.fromSlice data = .ok (.registry .stopRequest)

/-- The connections of the others are still there. -/
def Remain (s : RegistryServer) : Prop :=
  s.backupStream = t.before.backupStream ∧
    ∀ token, t.client ≠ some token → s.tokenStreamMap token = t.before.tokenStreamMap token

/-- The loop returns only after a `StopRequest`. Any other turn, unless the primary server
leaves on purpose, lets it serve the others. -/
structure Endures : Prop where
  returns : ∀ s result, t.next = .returned s result → t.Stops serde
  serves : ¬ t.Stops serde → (∀ code, t.outcome ≠ .exit code) →
    ∃ s, t.next = .serving s ∧ t.Remain s

end Turn

/-- Every turn of the loop lets the server endure. -/
def Survives (secondaryServer : Option (SocketAddr × TcpStream)) (inputs : List (Input Bytes)) :
    Prop :=
  ∀ t ∈ ((bind serde secondaryServer).run inputs).2, t.Endures serde

/-- A step that does not end the loop. The client that connects can be greeted, and the
secondary server told of it; bytes are a message or a text at least; and no client has the token
of the secondary server when this matters. -/
def Harmless (s : RegistryServer) : Input Bytes → Prop
  | .connection env stream _ =>
      (s.backupAddr = none ∧ s.firstConnection = true) ∨
        (env.clientWrite stream 0 = none ∧ (s.backupStream ≠ none → env.backupWrite = none))
  | .readable _ token read =>
      if token = s.backupToken then
        s.backupStream ≠ none ∧ (s.tokenStreamMap token = none ∨
          ∀ e, read = .failed e → e.kind ≠ .connectionReset)
      else ∀ data, read = .data data → Legible serde data

/-- The step is harmless, if the loop takes it. -/
def Bind.Harmless (b : Bind) (i : Input Bytes) : Prop :=
  ∀ s, b = .serving s → s.Reported i → s.Harmless serde i

/-! ## One turn -/

/-- How `handle_connection` ends. -/
theorem handleConnection_ends {env : Env} (hregister : env.register = none) (stream : TcpStream)
    (addr : SocketAddr) (s : RegistryServer) :
    (s.Harmless serde (.connection env stream addr) ∧
      ((handleConnection serde env stream addr).run s.enter).1 = .ok ()) ∨
    (¬ s.Harmless serde (.connection env stream addr) ∧
      ∃ e, ((handleConnection serde env stream addr).run s.enter).1 = .err e) := by
  unfold handleConnection
  rw [Exec.bind_ok (Exec.get_run _)]
  by_cases hfirst : s.backupAddr = none ∧ s.firstConnection = true
  -- the primary registry is not greeted, and nothing else can fail
  · refine Or.inl ⟨Or.inl hfirst, ?_⟩
    rw [if_pos (by simpa [enter] using hfirst)]
    simp [register, hregister, Exec.bind_run, update_run]
  · rw [if_neg (by simpa [enter] using hfirst), Exec.bind_ok (update_run _ _)]
    simp only [register, hregister]
    rw [Exec.bind_ok (Exec.pure_run () _)]
    rw [Exec.bind_run, writeAll_run]
    -- the greeting is the first write of the step
    cases hwrite : env.clientWrite stream 0 with
    | some e =>
        refine Or.inr ⟨fun hharmless => ?_, .ioError e, ?_⟩
        · rcases hharmless with hprimary | ⟨hok, -⟩
          · exact hfirst hprimary
          · exact absurd (hwrite.symm.trans hok) (by simp)
        · simp [enter, hwrite]
    | none =>
        simp only [enter, hwrite]
        rw [Exec.bind_ok (update_run _ _), forwardRequest_run]
        -- `ConnectionEstablished` is forwarded if there is a secondary server
        cases hbackup : s.backupStream with
        | none =>
            refine Or.inl ⟨Or.inr ⟨hwrite, fun hsome => absurd hbackup hsome⟩, ?_⟩
            simp
        | some backup =>
            cases hforward : env.backupWrite with
            | none =>
                refine Or.inl ⟨Or.inr ⟨hwrite, fun _ => hforward⟩, ?_⟩
                simp
            | some e =>
                refine Or.inr ⟨fun hharmless => ?_, .ioError e, ?_⟩
                · rcases hharmless with hprimary | ⟨-, hok⟩
                  · exact hfirst hprimary
                  · exact absurd (hforward.symm.trans (hok (by simp [hbackup]))) (by simp)
                · simp

section

variable {s : RegistryServer} {env : Env} {token : Token} {read : ReadResult Bytes}

/-- The loop takes the step. -/
theorem turn_reported {i : Input Bytes} (hreported : s.Reported i) :
    (∀ t ∈ (turn serde (.serving s) i).2, t.Endures serde) ↔
      Turn.Endures serde ⟨s, i, ((i.handle serde).run s.enter).1,
        resume (step serde s i).1 i ((i.handle serde).run s.enter).1⟩ := by
  unfold turn
  dsimp only
  rw [if_pos hreported]
  exact List.forall_mem_singleton

/-- The loop endures a connection exactly if `handle_connection` succeeds. -/
theorem connection_endures_iff {stream : TcpStream} {addr : SocketAddr}
    (hpoll : env.register = none) :
    (∀ t ∈ (turn serde (.serving s) (.connection env stream addr)).2, t.Endures serde) ↔
      s.Harmless serde (.connection env stream addr) := by
  have hreported : s.Reported (.connection env stream addr : Input Bytes) := trivial
  have haccepted := step_accepted serde env s stream addr
  rw [turn_reported serde hreported]
  rcases handleConnection_ends serde hpoll stream addr s with ⟨hharmless, hok⟩ | ⟨hharm, e, herr⟩
  · refine ⟨fun _ => hharmless, fun _ => ?_⟩
    rw [Input.handle, hok]
    exact ⟨by rintro s' result ⟨⟩, fun _ _ => ⟨_, rfl, haccepted.backupStream, fun p hp =>
      haccepted.others fun heq => hp (congrArg some heq.symm)⟩⟩
  · refine ⟨fun hendures => ?_, fun hharmless => absurd hharmless hharm⟩
    rw [Input.handle, herr] at hendures
    obtain ⟨env', token', data', hinput, -⟩ := hendures.returns _ _ rfl
    cases hinput

/-- The loop endures the secondary server as long as it has a socket, and no client has the token
of the secondary server when the connection is reset. -/
theorem backup_endures_iff (hbackup : token = s.backupToken)
    (hreported : s.Reported (.readable env token read)) :
    (∀ t ∈ (turn serde (.serving s) (.readable env token read)).2, t.Endures serde) ↔
      s.Harmless serde (.readable env token read) := by
  rw [turn_reported serde hreported, Harmless, if_pos hbackup]
  have hnotstop : ∀ o b, ¬ Turn.Stops serde ⟨s, .readable env token read, o, b⟩ := by
    rintro o b ⟨env', token', data', hinput, hne, -⟩
    cases hinput
    exact hne hbackup
  -- without a secondary server there is no socket to unwrap
  cases hsome : s.backupStream with
  | none =>
      refine ⟨fun hendures => ?_, fun hharmless => absurd rfl hharmless.1⟩
      have hpanic := handleData_run serde s env token read
      rw [if_pos hbackup, hsome] at hpanic
      rw [Input.handle, hpanic] at hendures
      obtain ⟨s', hnext, -⟩ := hendures.serves (hnotstop _ _) (by simp)
      cases hnext
  | some stream =>
      have hrun := handleData_run serde s env token read
      rw [if_pos hbackup, hsome, show (token == s.backupToken) = true by simpa using hbackup] at hrun
      have hserver : (step serde s (.readable env token read)).1
          = ((handleRead serde env token true read).run s.enter).2.server :=
        congrArg (fun r => r.2.server) hrun
      rw [Input.handle, hrun, hserver]
      -- nothing happens unless the connection is reset
      have hidle : ∀ o, Turn.Endures serde ⟨s, .readable env token read, o, .serving s⟩ := fun o =>
        ⟨by rintro s' result ⟨⟩, fun _ _ => ⟨s, rfl, rfl, fun _ _ => rfl⟩⟩
      cases read with
      | eof => exact ⟨fun _ => ⟨by simp, Or.inr (by simp)⟩, fun _ => hidle _⟩
      | data data => exact ⟨fun _ => ⟨by simp, Or.inr (by simp)⟩, fun _ => hidle _⟩
      | failed e =>
          unfold handleRead
          dsimp only
          cases hkind : e.kind with
          | wouldBlock | connectionRefused | timedOut | other =>
              refine ⟨fun _ => ⟨by simp, Or.inr ?_⟩, fun _ => hidle _⟩
              rintro e' ⟨⟩
              simp [hkind]
          | connectionReset =>
              have hgone : ((removeClient token >>= fun _ => Exec.throw (.ioError e) : Method Bytes Unit).run
                  s.enter) = (.err (.ioError e), { (s.enter : Host Bytes) with server := { s with
                    tokenStreamMap := Function.update s.tokenStreamMap token none
                    tokenAddrMap := Function.update s.tokenAddrMap token none } }) := rfl
              rw [hgone]
              constructor
              · intro hendures
                obtain ⟨s', hnext, -, hothers⟩ := hendures.serves (hnotstop _ _) (by simp)
                obtain rfl := Bind.serving.inj hnext
                have hkept := hothers token (by simp [Turn.client, hbackup])
                exact ⟨by simp, Or.inl (by rw [← hkept]; exact Function.update_self ..)⟩
              · rintro ⟨-, hnone | hno⟩
                · refine ⟨by rintro s' result ⟨⟩, fun _ _ => ⟨_, rfl, rfl, fun token' _ => ?_⟩⟩
                  -- a reset frees the token of the secondary server, which a client may have
                  by_cases htoken : token' = token
                  · rw [htoken, hnone]
                    exact Function.update_self ..
                  · exact Function.update_of_ne htoken _ _
                · exact absurd hkind (hno e rfl)

/-- The loop endures what a client sends exactly if it can be printed. -/
theorem client_endures_iff (hs : s.Orderly) (hclient : token ≠ s.backupToken)
    (hreported : s.Reported (.readable env token read)) :
    (∀ t ∈ (turn serde (.serving s) (.readable env token read)).2, t.Endures serde) ↔
      s.Harmless serde (.readable env token read) := by
  have hends := handleData_ends serde hs.1 hs.2 env token read
  have hreadable := step_readable serde env s token read
  rw [turn_reported serde hreported, Harmless, if_neg hclient]
  rw [Input.handle]
  generalize ((handleData serde env token read).run s.enter).1 = o at hends ⊢
  have hothers : ∀ s' : RegistryServer, (step serde s (.readable env token read)).1 = s' →
      Turn.Remain ⟨s, .readable env token read, o, .serving s'⟩ s' := by
    rintro s' rfl
    refine ⟨hreadable.backupStream, fun token' hne => hreadable.others fun heq => hne ?_⟩
    simp [Turn.client, hclient, heq]
  cases hends with
  -- the poll does not report a socket that is not registered
  | missing read msg hmissing =>
      rw [if_neg hclient] at hmissing
      rcases hreported with hstream | ⟨hbackup, -⟩
      · exact absurd hmissing hstream
      · exact absurd hbackup hclient
  -- the panic over the data is no end that a `StopRequest` asks for
  | illegible data text msg _ hparse hutf8 =>
      refine ⟨fun hendures => ?_, fun hlegible => ?_⟩
      · have hnotstop : ∀ o b, ¬ Turn.Stops serde ⟨s, .readable env token (.data data), o, b⟩ := by
          rintro o b ⟨env', token', data', hinput, -, hstop⟩
          cases hinput
          exact absurd (hparse.symm.trans hstop) (by simp)
        obtain ⟨s', hnext, -⟩ := hendures.serves (hnotstop _ _) (by simp)
        cases hnext
      · exact absurd (hlegible data rfl) (not_legible serde hparse hutf8)
  -- after a `StopRequest` the loop may return
  | stop data _ hparse =>
      have hstops : ∀ b, Turn.Stops serde ⟨s, .readable env token (.data data), .err .stopRequest, b⟩ :=
        fun b => ⟨env, token, data, rfl, hclient, hparse⟩
      refine ⟨fun _ data' hdata => ?_, fun _ =>
        ⟨fun _ _ _ => hstops _, fun hno => absurd (hstops _) hno⟩⟩
      cases hdata
      exact Or.inl ⟨_, hparse⟩
  -- `bind` logs the error and goes on
  | failed read e hstop hlegible =>
      refine ⟨fun _ => hlegible hclient, fun _ => ?_⟩
      have hlogged : ∀ s', resume s' (.readable env token read) (.err e) = .serving s' := by
        intro s'
        cases e with
        | stopRequest => exact absurd rfl hstop
        | ioError | serializationError | unexpectedRequest | accessManager | invalidToken
        | unknownHolder => rfl
      rw [hlogged]
      exact ⟨by rintro s' result ⟨⟩, fun _ _ => ⟨_, rfl, hothers _ rfl⟩⟩
  | fine read hlegible =>
      exact ⟨fun _ => hlegible hclient, fun _ =>
        ⟨by rintro s' result ⟨⟩, fun _ _ => ⟨_, rfl, hothers _ rfl⟩⟩⟩
  -- the primary server leaves on purpose, which is not held against it
  | left data hbackup hfirst hlegible =>
      refine ⟨fun _ data' hdata => ?_, fun _ => ⟨by rintro s' result ⟨⟩, fun _ hno => ?_⟩⟩
      · cases hdata
        exact hlegible
      · exact absurd rfl (hno 0)

end

/-- The loop endures a turn exactly if the step is harmless. -/
theorem turn_endures_iff {s : RegistryServer} (hs : s.Orderly) {i : Input Bytes}
    (hpoll : i.env.register = none) (hreported : s.Reported i) :
    (∀ t ∈ (turn serde (.serving s) i).2, t.Endures serde) ↔ s.Harmless serde i := by
  cases i with
  | connection env stream addr => exact connection_endures_iff serde hpoll
  | readable env token read =>
      by_cases hbackup : token = s.backupToken
      · exact backup_endures_iff serde hbackup hreported
      · exact client_endures_iff serde hs hbackup hreported

/-! ## Runs -/

/-- The server in the loop has only gone through steps of the machine. -/
def Bind.Orderly (b : Bind) : Prop := ∀ s, b = .serving s → s.Orderly

theorem turn_orderly {b : Bind} (hb : b.Orderly) (i : Input Bytes) : (turn serde b i).1.Orderly := by
  cases b with
  | returned s result => exact hb
  | gone s => exact hb
  | serving s =>
      unfold turn
      dsimp only
      split
      · intro s' hs'
        have hstep : (step serde s i).1.Orderly := step_orderly serde (hb s rfl) i
        have hself : ∀ o, resume (step serde s i).1 i o = .serving s' → (step serde s i).1 = s' := by
          intro o ho
          unfold resume at ho
          split at ho <;> first | exact Bind.serving.inj ho | cases ho
        exact hself _ hs' ▸ hstep
      · exact hb

/-- The turn that the loop makes of an input, if it makes one. -/
theorem turn_harmless_iff {b : Bind} (hb : b.Orderly) {i : Input Bytes}
    (hpoll : i.env.register = none) :
    (∀ t ∈ (turn serde b i).2, t.Endures serde) ↔ b.Harmless serde i := by
  cases b with
  | returned s result => simp [turn, Bind.Harmless]
  | gone s => simp [turn, Bind.Harmless]
  | serving s =>
      by_cases hreported : s.Reported i
      · rw [turn_endures_iff serde (hb s rfl) hpoll hreported]
        constructor
        · rintro hharmless s' ⟨⟩ -
          exact hharmless
        · intro hharmless
          exact hharmless s rfl hreported
      · constructor
        · rintro - s' ⟨⟩ hreported'
          exact absurd hreported' hreported
        · intro _ t ht
          unfold turn at ht
          dsimp only at ht
          rw [if_neg hreported] at ht
          cases ht

theorem exec_endures_iff (secondaryServer : Option (SocketAddr × TcpStream)) {b : Bind}
    (hb : b.Orderly) (inputs : List (Input Bytes)) (hpoll : ∀ i ∈ inputs, i.env.register = none) :
    (∀ t ∈ ((bind serde secondaryServer).exec b inputs).2, t.Endures serde) ↔
      (bind serde secondaryServer).Along (Bind.Harmless serde) b inputs := by
  induction inputs generalizing b with
  | nil => simp [IOMachine.Along]
  | cons i inputs ih =>
      -- the first turn is decided by its own step, the others by the state that it leaves
      have hfirst := turn_harmless_iff serde hb (hpoll i List.mem_cons_self)
      have hrest := ih (turn_orderly serde hb i) fun j hj => hpoll j (List.mem_cons_of_mem i hj)
      rw [IOMachine.exec_cons, List.forall_mem_append]
      exact and_congr hfirst hrest

/-- **One peer's failure and the others**: the registry survives a run exactly if all its steps
are harmless. -/
theorem survives_iff (secondaryServer : Option (SocketAddr × TcpStream))
    (inputs : List (Input Bytes)) (hpoll : ∀ i ∈ inputs, i.env.register = none) :
    Survives serde secondaryServer inputs ↔
      (bind serde secondaryServer).Along (Bind.Harmless serde) (.serving (new secondaryServer))
        inputs := by
  refine exec_endures_iff serde secondaryServer ?_ inputs hpoll
  rintro s ⟨⟩
  exact new_orderly secondaryServer

/-- A client sends what no client should and cannot be told so, then its connection is reset, and
the primary registry asks for the end. -/
theorem survives_reset :
    Survives Serde.direct none
      [.connection (Env.calm .ascending) 10 ⟨"127.0.0.1", 8888⟩,
        .connection (Env.calm .ascending) 11 ⟨"127.0.0.1", 4001⟩,
        .readable (brokenOn 11) 1 (.data (.registry (.connection 7))),
        .readable (Env.calm .ascending) 1 (.failed ⟨.connectionReset, "reset by peer"⟩),
        .readable (Env.calm .ascending) 1000 (.data (.registry .stopRequest))] := by
  refine (survives_iff Serde.direct none _ (by decide)).2 ?_
  -- all that a client can send here is a message
  have hmessage : ∀ {s : RegistryServer} {env : Env} {token : Token} {read : ReadResult Message},
      s.backupToken = 999 → token ≠ 999 → s.Harmless Serde.direct (.readable env token read) := by
    intro s env token read hbackup htoken
    rw [Harmless, if_neg (by rw [hbackup]; exact htoken)]
    exact fun data _ => Or.inl ⟨data, rfl⟩
  refine ⟨fun s _ _ => Or.inr ⟨rfl, fun _ => rfl⟩, fun s _ _ => Or.inr ⟨rfl, fun _ => rfl⟩, ?_, ?_, ?_,
    trivial⟩
  · rintro s ⟨⟩ -
    exact hmessage rfl (by decide)
  · rintro s ⟨⟩ -
    exact hmessage rfl (by decide)
  · rintro s ⟨⟩ -
    exact hmessage rfl (by decide)

/-- A client that has left cannot be greeted, and the loop returns. -/
theorem clientLeft_endsLoop :
    ¬ Survives Serde.direct none
      [.connection (Env.calm .ascending) 10 ⟨"127.0.0.1", 8888⟩,
        .connection (brokenOn 11) 11 ⟨"127.0.0.1", 4001⟩] := by
  intro h
  obtain ⟨env, token, data, hinput, -⟩ := (h _ (List.mem_cons_of_mem _ List.mem_cons_self)).returns
    _ _ rfl
  cases hinput

end RegistryServer

end Soros
