import Soros.RegistryServer.Delivery
import Soros.RegistryServer.Tokens

set_option autoImplicit false

/-! # The addresses that the registry hands out

A reader is told the address of the holder, to fetch the data from it. The registry has the
addresses in `token_addr_map`: it enters a client when it has greeted it, and strikes it out when it
sees it leave. `addressOf` reads the same off the log, and in every run, whatever fails, each
address handed out is that of a client that is then connected (`holders_connected`).

The tokens of the first 998 clients are their own. The 999th client shares its token with the
secondary server, and what happens on one socket is then taken for the other. -/

namespace Soros

namespace RegistryServer

/-- The address of `p` after a step, by what the step has been and what it has written. -/
def Served.addressOf (p : ProcId) (o : Option SocketAddr) (e : Served Message) :
    Option SocketAddr :=
  match e.input, e.written with
  | .connection _ _ addr, [(_, .registry (.connection token))] => if token = p then some addr else o
  | .connection _ _ _, _ => o
  | .readable _ token read, _ => if token = p ∧ read.Ends then none else o

/-- Where `p` is connected from, by a log. -/
def addressOf (p : ProcId) (log : List (Served Message)) : Option SocketAddr :=
  log.foldl (Served.addressOf p) none

theorem addressOf_concat (p : ProcId) (log : List (Served Message)) (e : Served Message) :
    addressOf p (log ++ [e]) = Served.addressOf p (addressOf p log) e := by
  simp [addressOf, List.foldl_append]

/-- The server has the addresses that the log has. -/
structure Books (s : RegistryServer) (log : List (Served Message)) : Prop where
  backup : s.backupToken = 999
  addresses : ∀ p, s.tokenAddrMap p = addressOf p log
  connected : ∀ p, s.tokenAddrMap p ≠ none → p ≤ s.idCounter ∧ s.tokenStreamMap p ≠ none

variable {s : RegistryServer} {log : List (Served Message)}

/-- The events of a step. -/
theorem step_event (s : RegistryServer) (i : Input Message) :
    ∃ outcome written forwarded, (step Serde.direct s i).2 = [⟨i, outcome, written, forwarded⟩] ∧
      written = (step Serde.direct s i).2.flatMap Served.written :=
  ⟨_, _, _, rfl, by simp [step]⟩

/-! ## A step keeps the books -/

/-- The greeting of a client. -/
theorem connection_written (env : Env) (stream : TcpStream) (addr : SocketAddr)
    (s : RegistryServer) :
    (step Serde.direct s (.connection env stream addr)).2.flatMap Served.written =
      if s.TakesClient env stream then [(stream, .registry (.connection (s.idCounter + 1)))] else [] := by
  have hwritten : (step Serde.direct s (.connection env stream addr)).2.flatMap Served.written
      = ((handleConnection Serde.direct env stream addr).run s.enter).2.written := by
    simp [step, Input.handle]
  rw [hwritten]
  unfold handleConnection
  rw [Exec.bind_ok (Exec.get_run s.enter)]
  dsimp only [enter]
  by_cases hawaits : s.AwaitsPrimary
  · rw [if_pos (by simp [hawaits.1, hawaits.2]), if_neg fun htakes => htakes.1 hawaits]
    cases hregister : env.register <;> simp [register, hregister, Exec.bind_run, update_run]
  · rw [if_neg (by simpa [AwaitsPrimary] using hawaits), Exec.bind_ok (update_run _ _)]
    cases hregister : env.register with
    | some e =>
        rw [if_neg (by simp [TakesClient, hregister])]
        simp [register, hregister, Exec.bind_run]
    | none =>
        simp only [register, hregister]
        rw [Exec.bind_ok (Exec.pure_run () _), Exec.bind_run, writeAll_run]
        cases hwrite : env.clientWrite stream 0 with
        | some e => rw [if_neg (by simp [TakesClient, hwrite])]
        | none =>
            rw [if_pos ⟨hawaits, hregister, hwrite⟩]
            dsimp only
            rw [Exec.bind_ok (update_run _ _), forwardRequest_run]
            split
            · cases env.backupWrite <;> rfl
            · rfl

theorem Books.connection (h : Books s log) (env : Env) (stream : TcpStream) (addr : SocketAddr) :
    Books (step Serde.direct s (.connection env stream addr)).1
      (log ++ (step Serde.direct s (.connection env stream addr)).2) := by
  obtain ⟨outcome, written, forwarded, hevents, hwritten⟩ :=
    step_event s (.connection env stream addr)
  rw [connection_written] at hwritten
  rw [hevents]
  have hnext : ∀ p,
      addressOf p (log ++ [⟨.connection env stream addr, outcome, written, forwarded⟩])
        = if s.TakesClient env stream ∧ s.idCounter + 1 = p then some addr else addressOf p log := by
    intro p
    rw [addressOf_concat, hwritten]
    by_cases htakes : s.TakesClient env stream
    · simp only [Served.addressOf, htakes, true_and, if_true]
    · simp only [Served.addressOf, htakes, false_and, if_false]
  by_cases hawaits : s.AwaitsPrimary
  · rw [step_primary Serde.direct hawaits]
    refine ⟨h.backup, fun p => ?_, fun p hp => ?_⟩
    · exact (h.addresses p).trans ((hnext p).trans (if_neg fun hno => hno.1.1 hawaits)).symm
    · obtain ⟨hle, hstream⟩ := h.connected p hp
      refine ⟨hle, ?_⟩
      dsimp only
      split
      · by_cases heq : p = s.primaryToken
        · rw [heq, Function.update_self]
          exact Option.some_ne_none _
        · rwa [Function.update_of_ne heq]
      · exact hstream
  by_cases htakes : s.TakesClient env stream
  · rw [step_takesClient Serde.direct htakes]
    refine ⟨h.backup, fun p => ?_, fun p hp => ?_⟩
    · rw [hnext]
      dsimp only
      by_cases heq : s.idCounter + 1 = p
      · rw [if_pos ⟨htakes, heq⟩, heq, Function.update_self]
      · rw [if_neg fun hno => heq hno.2, Function.update_of_ne (Ne.symm heq), h.addresses p]
    · dsimp only at hp ⊢
      by_cases heq : p = s.idCounter + 1
      · rw [heq, Function.update_self]
        exact ⟨Nat.le_refl _, Option.some_ne_none _⟩
      · rw [Function.update_of_ne heq] at hp ⊢
        obtain ⟨hle, hstream⟩ := h.connected p hp
        exact ⟨Nat.le_succ_of_le hle, hstream⟩
  · rw [step_losesClient Serde.direct hawaits htakes]
    refine ⟨h.backup, fun p => ?_, fun p hp => ?_⟩
    · exact (h.addresses p).trans ((hnext p).trans (if_neg fun hno => htakes hno.1)).symm
    · obtain ⟨hle, hstream⟩ := h.connected p hp
      exact ⟨Nat.le_succ_of_le hle, hstream⟩

theorem Books.readable (h : Books s log) (hfew : s.idCounter < 999) (env : Env) (token : Token)
    (read : ReadResult Message) :
    Books (step Serde.direct s (.readable env token read)).1
      (log ++ (step Serde.direct s (.readable env token read)).2) := by
  obtain ⟨outcome, written, forwarded, hevents, -⟩ := step_event s (.readable env token read)
  have hreadable := step_readable Serde.direct env s token read
  rw [hevents]
  generalize (step Serde.direct s (.readable env token read)).1 = s' at hreadable ⊢
  have hnext : ∀ p, addressOf p (log ++ [⟨.readable env token read, outcome, written, forwarded⟩])
      = if token = p ∧ read.Ends then none else addressOf p log := by
    intro p
    rw [addressOf_concat]
    rfl
  cases hreadable with
  | idle _ hidle =>
      refine ⟨h.backup, fun p => ?_, h.connected⟩
      rw [hnext]
      split
      · rename_i hends
        obtain ⟨rfl, hends⟩ := hends
        by_contra hp
        obtain ⟨hle, hstream⟩ := h.connected token hp
        -- the socket that is read is the client's own
        rcases hidle with hbackup | hnone | ⟨e, rfl, hkind⟩
        · rw [hbackup, h.backup] at hle
          exact absurd hfew (Nat.not_lt.2 hle)
        · exact hstream hnone
        · exact hkind hends
      · exact h.addresses p
  | gone _ hends =>
      refine ⟨h.backup, fun p => ?_, fun p hp => ?_⟩
      · rw [hnext]
        dsimp only
        by_cases heq : p = token
        · rw [heq, Function.update_self, if_pos ⟨rfl, hends⟩]
        · rw [Function.update_of_ne heq, if_neg fun hno => heq hno.1.symm, h.addresses p]
      · dsimp only at hp ⊢
        by_cases heq : p = token
        · rw [heq, Function.update_self] at hp
          exact absurd rfl hp
        · rw [Function.update_of_ne heq] at hp ⊢
          exact h.connected p hp
  | request data _ hstream hbackup hs' =>
      rw [hs']
      refine ⟨h.backup, fun p => ?_, h.connected⟩
      rw [hnext, if_neg fun hno => hno.2]
      exact h.addresses p

theorem step_idCounter (s : RegistryServer) (i : Input Message) :
    s.idCounter ≤ (step Serde.direct s i).1.idCounter := by
  cases i with
  | connection env stream addr =>
      have haccepted := step_accepted Serde.direct env s stream addr
      generalize (step Serde.direct s (.connection env stream addr)).1 = s' at haccepted ⊢
      cases haccepted with
      | primary | primaryLost => exact Nat.le_refl _
      | client | clientLost => exact Nat.le_succ _
  | readable env token read =>
      have hreadable := step_readable Serde.direct env s token read
      generalize (step Serde.direct s (.readable env token read)).1 = s' at hreadable ⊢
      cases hreadable with
      | idle | gone => exact Nat.le_refl _
      | request data _ hstream hbackup hs' => rw [hs']

theorem Books.step (h : Books s log) (hfew : s.idCounter < 999) (i : Input Message) :
    Books (RegistryServer.step Serde.direct s i).1
      (log ++ (RegistryServer.step Serde.direct s i).2) := by
  cases i with
  | connection env stream addr => exact h.connection env stream addr
  | readable env token read => exact h.readable hfew env token read

/-! ## The addresses that a step hands out -/

/-- The address that a message tells its reader. -/
def told : Message → Option SocketAddr
  | .registry (.response (.holder _ addr)) => some addr
  | _ => none

/-- The server has the address for a client. -/
def Known (s : RegistryServer) (addr : SocketAddr) : Prop := ∃ p, s.tokenAddrMap p = some addr

/-- An answer of `handle_message` tells an address that the server has, if any. -/
theorem answer_known (hs : s.Orderly) (env : Env) {message : Message}
    (hstop : message ≠ .registry .stopRequest) :
    (∃ response, result Serde.direct s env message = .ok response ∧
      ∀ addr, told (encode Serde.direct response) = some addr → s.Known addr) ∨
    ∃ e, e ≠ .stopRequest ∧ result Serde.direct s env message = .err e := by
  cases message with
  | data message => exact Or.inr ⟨.unexpectedRequest, by simp, rfl⟩
  | registry message =>
      cases message with
      | stopRequest => exact absurd rfl hstop
      | connectionEstablished token => exact Or.inl ⟨.ack, rfl, fun addr h => by cases h⟩
      | connection | response => exact Or.inr ⟨.unexpectedRequest, by simp, rfl⟩
      | request p t k =>
          obtain ⟨r, messages, o', hreply, hrun⟩ :=
            handleMessage_reply (h := (s.enter : Host Message)) hs.1 env p t k
          have hresult : result Serde.direct s env (.registry (.request p t k)) = .ofExcept r :=
            congrArg Prod.fst hrun
          rw [hresult]
          cases r with
          | error e => exact Or.inr ⟨e, hreply.error.1, rfl⟩
          | ok response =>
              refine Or.inl ⟨response, rfl, fun addr haddr => ?_⟩
              generalize (s.enter : Host Message).server.accessManager.keyStates k = o at hreply
              cases hreply with
              | read l c holder addr' hask hholder hknown =>
                  obtain rfl : addr' = addr := Option.some.inj haddr
                  exact ⟨holder, hknown⟩
              | create | delete | write | wait | release => cases haddr

/-- So does a grant to a process that has waited. -/
theorem delivery_known {a : AccessGranted} {w : TcpStream × Message} {addr : SocketAddr}
    (hw : delivery Serde.direct s a = some w) (haddr : told w.2 = some addr) : s.Known addr := by
  obtain ⟨stream, -, hw⟩ := Option.bind_eq_some_iff.1 hw
  obtain ⟨response, hresponse, rfl⟩ := Option.map_eq_some_iff.1 hw
  unfold grantAnswer at hresponse
  split at hresponse
  · obtain ⟨addr', hknown, rfl⟩ := Option.map_eq_some_iff.1 hresponse
    obtain rfl : addr' = addr := Option.some.inj haddr
    exact ⟨a.2.2.2, hknown⟩
  · cases hresponse
    cases haddr
  · cases hresponse

/-- **Every address that a message makes the registry hand out is in its map**, whatever fails. -/
theorem writtenBy_known (hs : s.Orderly) (env : Env) {token : Token} {stream : TcpStream}
    (hbackup : token ≠ s.backupToken) (hstream : s.tokenStreamMap token = some stream)
    (message : Message) {w : TcpStream × Message}
    (hw : w ∈ writtenBy Serde.direct s env token message) {addr : SocketAddr}
    (haddr : told w.2 = some addr) : s.Known addr := by
  have hparse : Serde.direct.fromSlice message = .ok message := rfl
  -- errors tell no address
  have herror : ∀ text, w ≠ (stream, encode Serde.direct (.error text)) := by
    rintro text rfl
    cases haddr
  by_cases hstop : message = .registry .stopRequest
  · have hnone : writtenBy Serde.direct s env token (.registry .stopRequest) = [] := by
      rw [writtenBy_eq Serde.direct hbackup hstream]
      rfl
    rw [hstop, hnone] at hw
    cases hw
  · rcases answer_known hs env hstop with ⟨response, hresult, hanswer⟩ | ⟨e, he, hresult⟩
    · by_cases hwrite : env.clientWrite stream 0 = none
      · obtain ⟨dealt, late, hcourse⟩ := exists_course env s (batchOf Serde.direct s env message)
        obtain ⟨answers, hwritten, hlate, -⟩ := writtenBy_course Serde.direct hbackup hstream hparse
          hresult hwrite (lockEffect_grantsOnly Serde.direct hs.1 hs.2 env message) hcourse
        rw [hwritten, List.cons_append, List.mem_cons, List.mem_append] at hw
        rcases hw with rfl | hw | hw
        · exact hanswer addr haddr
        · obtain ⟨a, -, hdelivery⟩ := List.mem_filterMap.1 hw
          exact delivery_known hdelivery haddr
        · obtain ⟨text, hsame⟩ := hlate w hw
          exact absurd hsame (herror text)
      · obtain ⟨hall, -⟩ := writtenBy_unanswered Serde.direct hbackup hstream hparse hresult hwrite
        obtain ⟨text, hsame⟩ := hall w hw
        exact absurd hsame (herror text)
    · obtain ⟨hall, -⟩ := writtenBy_refused Serde.direct hbackup hstream hparse hresult he
      exact absurd (hall w hw) (herror e.text)

theorem step_known (hs : s.Orderly) {i : Input Message} {w : TcpStream × Message}
    (hw : w ∈ (step Serde.direct s i).2.flatMap Served.written) {addr : SocketAddr}
    (haddr : told w.2 = some addr) : s.Known addr := by
  cases i with
  | connection env stream addr' =>
      obtain ⟨first, hwritten, hfirst⟩ :=
        @handleConnection_writes Message Serde.direct env stream addr' s.enter
      have hw' : w ∈ ((handleConnection Serde.direct env stream addr').run s.enter).2.written := by
        simpa [step, Input.handle] using hw
      rw [hwritten, show s.enter.written = ([] : List (TcpStream × Message)) from rfl,
        List.nil_append] at hw'
      rcases hfirst with rfl | rfl
      · cases hw'
      · obtain rfl := List.mem_singleton.1 hw'
        cases haddr
  | readable env token read =>
      by_cases hquiet : (∀ data, read ≠ .data data) ∨ token = s.backupToken ∨
          s.tokenStreamMap token = none
      · have hnone := handleData_quiet Serde.direct env (h := s.enter) hquiet
        have hw' : w ∈ ((handleData Serde.direct env token read).run s.enter).2.written := by
          simpa [step, Input.handle] using hw
        rw [hnone] at hw'
        cases hw'
      · push Not at hquiet
        obtain ⟨⟨message, rfl⟩, hbackup, hsome⟩ := hquiet
        obtain ⟨stream, hstream⟩ := Option.ne_none_iff_exists'.1 hsome
        exact writtenBy_known hs env hbackup hstream message hw haddr

/-! ## Runs -/

/-- What a step hands out are addresses of clients that were connected then. -/
def ToldConnected (pre : List (Served Message)) (e : Served Message) : Prop :=
  ∀ w ∈ e.written, ∀ addr, told w.2 = some addr → ∃ p, addressOf p pre = some addr

theorem Books.told (h : Books s log) (hs : s.Orderly) (i : Input Message) :
    EachAfter (fun pre e => ToldConnected (log ++ pre) e)
      (RegistryServer.step Serde.direct s i).2 := by
  obtain ⟨outcome, written, forwarded, hevents, hwritten⟩ := step_event s i
  rw [hevents]
  refine .cons (fun w hw addr haddr => ?_) .nil
  obtain ⟨p, hp⟩ := step_known hs (i := i) (hwritten ▸ hw) haddr
  exact ⟨p, by rw [List.append_nil, ← h.addresses p, hp]⟩

theorem Books.start (secondaryServer : Option (SocketAddr × TcpStream)) :
    Books (new secondaryServer) [] where
  backup := rfl
  addresses := fun _ => rfl
  connected := fun _ hp => absurd rfl hp

/-- **Readers are sent to clients that are connected.** In every run in which fewer than 999
clients come, whatever fails, each address that the registry hands out is that of a client that it
has greeted and has not seen leave. -/
theorem holders_connected (secondaryServer : Option (SocketAddr × TcpStream))
    (inputs : List (Input Message))
    (hfew : ((machine Serde.direct secondaryServer).run inputs).1.idCounter < 999) :
    EachAfter ToldConnected ((machine Serde.direct secondaryServer).run inputs).2 := by
  have hrun := IOMachine.run_induction (M := machine Serde.direct secondaryServer)
    (fun s log => s.Orderly ∧ (s.idCounter < 999 → Books s log ∧ EachAfter ToldConnected log))
    ⟨new_orderly secondaryServer, fun _ => ⟨.start secondaryServer, .nil⟩⟩ ?_ inputs
  · exact (hrun.2 hfew).2
  · rintro s log i ⟨hs, hlog⟩
    refine ⟨step_orderly Serde.direct hs i, fun hnext => ?_⟩
    have hlow : s.idCounter < 999 := Nat.lt_of_le_of_lt (step_idCounter s i) hnext
    obtain ⟨hbooks, htold⟩ := hlog hlow
    exact ⟨hbooks.step hlow i, htold.append (hbooks.told hs i)⟩

/-- A client creates a key, and another one reads it. -/
def readInputs : List (Input Message) :=
  [.connection (Env.calm .ascending) 10 ⟨"127.0.0.1", 8888⟩,
    .connection (Env.calm .ascending) 11 ⟨"127.0.0.1", 4001⟩,
    .connection (Env.calm .ascending) 12 ⟨"127.0.0.1", 4002⟩,
    .readable (Env.calm .ascending) 1 (.data (.registry (.request 1 .create 0))),
    .readable (Env.calm .ascending) 2 (.data (.registry (.request 2 .read 0)))]

theorem holders_connected_read :
    EachAfter ToldConnected ((machine Serde.direct none).run readInputs).2 :=
  holders_connected none readInputs (by decide)

end RegistryServer

end Soros
