import Soros.RegistryServer.Delivery

set_option autoImplicit false

/-! # How the steps of the server end

`RequestEnds` lists how `handle_request` can end in a state that a run reaches, and
`ReadEnds` does so for `handle_data`. A panic is among it twice: the parser's error path
prints the data, which has to be UTF-8, and the socket of the secondary server has to exist when
its token is readable. Nothing else panics; that `handle_request` does not know what to do with
some grants is no matter, since the channel never has them. -/

namespace Soros

namespace RegistryServer

variable {Bytes : Type} (serde : Serde Bytes)

section

variable {s : RegistryServer} {env : Env} {token : Token} {data : Bytes}

/-- Nothing fails once `handle_message` has accepted a message and `batch` is in the channel: the
answer is written, no access stops the loop, and the message is forwarded. -/
structure Completes (env : Env) (s : RegistryServer) (token : Token) (batch : List AccessGranted) :
    Prop where
  answered : Writable env s 0 token
  clear : Clear env s 1 batch
  forwarded : s.backupStream.isSome → env.backupWrite = none

theorem Completes.withManager {batch : List AccessGranted} (h : Completes env s token batch)
    (m : AccessManager) : Completes env { s with accessManager := m } token batch :=
  ⟨h.answered, h.clear.withManager m, h.forwarded⟩

/-- The bytes are a message, or a text at least. -/
def Legible (data : Bytes) : Prop :=
  (∃ message, serde.fromSlice data = .ok message) ∨ serde.isUtf8 data = true

theorem not_legible {text : String} (hparse : serde.fromSlice data = .error text)
    (hutf8 : serde.isUtf8 data = false) : ¬ Legible serde data := by
  rintro (⟨message, hmessage⟩ | htrue)
  · exact absurd (hparse.symm.trans hmessage) (by simp)
  · exact absurd (hutf8.symm.trans htrue) (by simp)

/-- How `handle_request` can end. -/
inductive RequestEnds (s : RegistryServer) (env : Env) (token : Token) (data : Bytes) :
    Outcome RegistryServerError Unit → Prop
  | malformed (text : String) (hparse : serde.fromSlice data = .error text)
      (hutf8 : serde.isUtf8 data = true) :
      RequestEnds s env token data (.err (.serializationError text))
  | illegible (text msg : String) (hparse : serde.fromSlice data = .error text)
      (hutf8 : serde.isUtf8 data = false) : RequestEnds s env token data (.panic msg)
  | stop (hparse : serde.fromSlice data = .ok (.registry .stopRequest)) :
      RequestEnds s env token data (.err .stopRequest)
  | refused (message : Message) (e : RegistryServerError)
      (hparse : serde.fromSlice data = .ok message) (herr : result serde s env message = .err e)
      (hstop : e ≠ .stopRequest) : RequestEnds s env token data (.err e)
  | failed (message : Message) (response : RegistryResponse) (e : RegistryServerError)
      (hparse : serde.fromSlice data = .ok message)
      (hok : result serde s env message = .ok response) (hstop : e ≠ .stopRequest)
      (hfailed : ¬ Completes env s token (batchOf serde s env data)) :
      RequestEnds s env token data (.err e)
  | served (message : Message) (response : RegistryResponse)
      (hparse : serde.fromSlice data = .ok message)
      (hok : result serde s env message = .ok response)
      (hcompletes : Completes env s token (batchOf serde s env data))
      (o : Outcome RegistryServerError Unit) (ho : o = lastOutcome s) :
      RequestEnds s env token data o

/-- The rest of `handle_request` comes to its end, or it fails somewhere. -/
theorem completeRequest_ends {h : Host Bytes} (hstart : h.clientWrites = 0)
    (honly : GrantsOnly h.server.accessManager.accessGranted.buffer) (env : Env) (token : Token)
    (data : Bytes) (response : RegistryResponse) :
    (Completes env h.server token h.server.accessManager.accessGranted.buffer ∧
      ((completeRequest serde env token data response).run h).1 = lastOutcome h.server) ∨
    (¬ Completes env h.server token h.server.accessManager.accessGranted.buffer ∧
      ∃ e, e ≠ .stopRequest ∧ ((completeRequest serde env token data response).run h).1 = .err e) := by
  cases hstream : h.server.tokenStreamMap token with
  | none =>
      -- the client has gone, and cannot even be answered
      refine Or.inr ⟨fun hall => ?_, .invalidToken token, by simp, ?_⟩
      · obtain ⟨stream, hsome, -⟩ := hall.answered
        rw [hstream] at hsome
        cases hsome
      · unfold completeRequest
        rw [Exec.bind_err (handleResponse_run_gone serde hstream response)]
  | some stream =>
      cases hwrite : env.clientWrite stream 0 with
      | some e =>
          refine Or.inr ⟨fun hall => ?_, .ioError e, by simp, ?_⟩
          · obtain ⟨stream', hsome, hanswered⟩ := hall.answered
            obtain rfl := Option.some.inj (hstream.symm.trans hsome)
            exact absurd (hwrite.symm.trans hanswered) (by simp)
          · have hanswer := handleResponse_connected serde env hstream response
            rw [hstart, hwrite] at hanswer
            unfold completeRequest
            rw [Exec.bind_err hanswer]
      | none =>
          -- from the answer on it is a matter of the course
          obtain ⟨dealt, late, hcourse⟩ := exists_course env h.server
            h.server.accessManager.accessGranted.buffer
          obtain ⟨o, h', hrun, -, hends⟩ := completeRequest_course serde hstart hstream hwrite honly
            hcourse data response
          rw [hrun]
          cases hcourse with
          | done hclear hforward =>
              have hdone := completeRequest_run serde (hstart.symm ▸ hwrite) hstream
                (hstart.symm ▸ hclear) hforward data response
              obtain ⟨rfl, -⟩ := Prod.mk.inj (hrun.symm.trans hdone)
              exact Or.inl ⟨⟨⟨stream, hstream, hwrite⟩, hclear, hforward⟩, rfl⟩
          | forward hclear hbackup hforward =>
              exact Or.inr ⟨fun hall => hforward (hall.forwarded hbackup), hends.1⟩
          | stops dealt rest a hbatch hclear ha =>
              refine Or.inr ⟨fun hall => ha ?_, hends.1⟩
              have hfront := hall.clear
              rw [hbatch, clear_append] at hfront
              exact hfront.2.1

/-- **How `handle_request` ends** in a state that a run reaches. -/
theorem handleRequest_ends (hv : s.accessManager.Valid)
    (honly : GrantsOnly s.accessManager.accessGranted.buffer) (env : Env) (token : Token)
    (data : Bytes) :
    RequestEnds serde s env token data ((handleRequest serde env token data).run s.enter).1 := by
  cases hparse : serde.fromSlice data with
  | error text =>
      have hrun := parse_run serde data (s.enter : Host Bytes)
      rw [hparse] at hrun
      unfold handleRequest
      -- the error path prints the data
      cases hutf8 : serde.isUtf8 data with
      | true =>
          rw [hutf8] at hrun
          rw [Exec.bind_err hrun]
          exact .malformed text hparse hutf8
      | false =>
          rw [hutf8] at hrun
          rw [Exec.bind_run, hrun]
          exact .illegible text _ hparse hutf8
  | ok message =>
      by_cases hstopped : message = .registry .stopRequest
      · subst hstopped
        have hresult : result serde s env (.registry .stopRequest) = .err .stopRequest := rfl
        obtain ⟨hrequest, hmessage⟩ := handleRequest_parsed serde token hparse hresult
        rw [hrequest, Exec.bind_err hmessage]
        exact .stop hparse
      · rcases result_cases serde hv env hstopped with ⟨response, hok⟩ | ⟨e, hstop, herr⟩
        · obtain ⟨hrequest, hmessage⟩ := handleRequest_parsed serde token hparse hok
          rw [hrequest, Exec.bind_ok hmessage]
          -- `handle_message` accepts the message, and the rest fails or not
          rcases completeRequest_ends serde
              (h := (s.enter.gave message).withManager
                (lockEffect serde env data s.accessManager)) rfl
              (lockEffect_grantsOnly serde hv honly env data) env token data response with
            ⟨hcompletes, hlast⟩ | ⟨hnot, e, hstop, herr⟩
          · rw [hlast]
            exact .served message response hparse hok (hcompletes.withManager s.accessManager) _ rfl
          · rw [herr]
            exact .failed message response e hparse hok hstop fun hcompletes =>
              hnot (hcompletes.withManager _)
        · obtain ⟨hrequest, hmessage⟩ := handleRequest_parsed serde token hparse herr
          rw [hrequest, Exec.bind_err hmessage]
          exact .refused message e hparse herr hstop

/-- Answering an error works, or it fails with another error. -/
theorem handleError_ends (env : Env) (token : Token) (e : RegistryServerError) (h : Host Bytes) :
    ((handleError serde env token e).run h).1 = .ok () ∨
    ∃ e', e' ≠ .stopRequest ∧ ((handleError serde env token e).run h).1 = .err e' := by
  unfold handleError
  cases hstream : h.server.tokenStreamMap token with
  | none =>
      rw [handleResponse_run_gone serde hstream]
      exact Or.inr ⟨.invalidToken token, by simp, rfl⟩
  | some stream =>
      rw [handleResponse_connected serde env hstream]
      cases env.clientWrite stream h.clientWrites with
      | none => exact Or.inl rfl
      | some e' => exact Or.inr ⟨.ioError e', by simp, rfl⟩

/-- How `handle_data` can end. -/
inductive ReadEnds (s : RegistryServer) (token : Token) :
    ReadResult Bytes → Outcome RegistryServerError Unit → Prop
  /-- There is no socket to read from. -/
  | missing (read : ReadResult Bytes) (msg : String)
      (hmissing : (if token = s.backupToken then s.backupStream else s.tokenStreamMap token) = none) :
      ReadEnds s token read (.panic msg)
  | illegible (data : Bytes) (text msg : String) (hclient : token ≠ s.backupToken)
      (hparse : serde.fromSlice data = .error text) (hutf8 : serde.isUtf8 data = false) :
      ReadEnds s token (.data data) (.panic msg)
  | stop (data : Bytes) (hclient : token ≠ s.backupToken)
      (hparse : serde.fromSlice data = .ok (.registry .stopRequest)) :
      ReadEnds s token (.data data) (.err .stopRequest)
  | failed (read : ReadResult Bytes) (e : RegistryServerError) (hstop : e ≠ .stopRequest)
      (hlegible : token ≠ s.backupToken → ∀ data, read = .data data → Legible serde data) :
      ReadEnds s token read (.err e)
  | fine (read : ReadResult Bytes)
      (hlegible : token ≠ s.backupToken → ∀ data, read = .data data → Legible serde data) :
      ReadEnds s token read (.ok ())
  /-- The primary server leaves after its first request. -/
  | left (data : Bytes) (hbackup : s.backupStream.isSome) (hfirst : s.requestCounter = 0)
      (hlegible : Legible serde data) : ReadEnds s token (.data data) (.exit 0)

theorem serveRequest_ends (hv : s.accessManager.Valid)
    (honly : GrantsOnly s.accessManager.accessGranted.buffer) (env : Env)
    (hclient : token ≠ s.backupToken) (data : Bytes) :
    ReadEnds serde s token (.data data) ((serveRequest serde env token data).run s.enter).1 := by
  have hends := handleRequest_ends serde hv honly env token data
  rcases hrun : (handleRequest serde env token data).run s.enter with ⟨o, h'⟩
  rw [hrun] at hends
  dsimp only at hends
  -- whatever the error is, it is answered
  have herror : ∀ e, o = .err e → e ≠ .stopRequest → Legible serde data →
      ReadEnds serde s token (.data data) ((serveRequest serde env token data).run s.enter).1 := by
    rintro e rfl hstop hlegible
    have hread : token ≠ s.backupToken → ∀ data', ReadResult.data data = .data data' →
        Legible serde data' := by
      rintro - data' ⟨⟩
      exact hlegible
    rw [serveRequest_error serde hrun hstop]
    rcases handleError_ends serde env token e h' with hok | ⟨e', hstop', herr⟩
    · rw [hok]
      exact .fine _ hread
    · rw [herr]
      exact .failed _ e' hstop' hread
  -- any other end is passed on
  have hother : (∀ e, e ≠ .stopRequest → o ≠ .err e) →
      ((serveRequest serde env token data).run s.enter).1 = o := by
    intro hno
    unfold serveRequest Exec.attempt
    rw [Exec.bind_run]
    dsimp only
    rw [hrun]
    cases o with
    | ok | panic | exit => rfl
    | err e =>
        cases e with
        | stopRequest => rfl
        | ioError | serializationError | unexpectedRequest | accessManager | invalidToken
        | unknownHolder => exact absurd rfl (hno _ (by simp))
  cases hends with
  | malformed text hparse hutf8 => exact herror _ rfl (by simp) (Or.inr hutf8)
  | refused message e hparse herr hstop => exact herror e rfl hstop (Or.inl ⟨message, hparse⟩)
  | failed message response e hparse hok hstop hfailed =>
      exact herror e rfl hstop (Or.inl ⟨message, hparse⟩)
  | illegible text msg hparse hutf8 =>
      rw [hother (by simp)]
      exact .illegible data text msg hclient hparse hutf8
  | stop hparse =>
      rw [hother fun e hne heq => hne (Outcome.err.inj heq).symm]
      exact .stop data hclient hparse
  | served message response hparse hok hcompletes o ho =>
      unfold lastOutcome at ho
      split at ho
      · rename_i hlast
        rw [Bool.and_eq_true, beq_iff_eq] at hlast
        rw [hother (by simp [ho]), ho]
        exact .left data hlast.1 (by omega) (Or.inl ⟨message, hparse⟩)
      · rw [hother (by simp [ho]), ho]
        refine .fine _ fun _ data' hdata => ?_
        cases hdata
        exact Or.inl ⟨message, hparse⟩

/-- `handle_data` finds the socket, or it panics. -/
theorem handleData_run (s : RegistryServer) (env : Env) (token : Token) (read : ReadResult Bytes) :
    (handleData serde env token read).run s.enter
      = (match if token = s.backupToken then s.backupStream else s.tokenStreamMap token with
        | none => Exec.panic "called `Option::unwrap()` on a `None` value"
        | some _ => handleRead serde env token (token == s.backupToken) read).run s.enter := by
  have hstart : (handleData serde env token read).run s.enter
      = (match if token == s.backupToken then s.backupStream else s.tokenStreamMap token with
        | none => Exec.panic "called `Option::unwrap()` on a `None` value"
        | some _ => handleRead serde env token (token == s.backupToken) read).run s.enter := rfl
  rw [hstart]
  simp only [beq_iff_eq]

/-- **How `handle_data` ends** in a state that a run reaches. -/
theorem handleData_ends (hv : s.accessManager.Valid)
    (honly : GrantsOnly s.accessManager.accessGranted.buffer) (env : Env) (token : Token)
    (read : ReadResult Bytes) :
    ReadEnds serde s token read ((handleData serde env token read).run s.enter).1 := by
  rw [handleData_run]
  cases hstream : if token = s.backupToken then s.backupStream else s.tokenStreamMap token with
  | none => exact .missing read _ hstream
  | some stream =>
      dsimp only
      cases read with
      | eof =>
          unfold handleRead
          dsimp only
          split <;> exact .fine _ (by simp)
      | data data =>
          unfold handleRead
          dsimp only
          split
          -- what the secondary server sends is not looked at
          · rename_i hbackup
            exact .fine _ fun hclient => absurd (by simpa using hbackup) hclient
          · rename_i hclient
            exact serveRequest_ends serde hv honly env (by simpa using hclient) data
      | failed e =>
          unfold handleRead
          dsimp only
          cases e.kind with
          | wouldBlock => exact .fine _ (by simp)
          | connectionReset | connectionRefused | timedOut | other =>
              exact .failed _ _ (by simp) (by simp)

end

end RegistryServer

end Soros
