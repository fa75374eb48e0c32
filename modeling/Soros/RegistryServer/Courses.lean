import Soros.RegistryServer.Requests

set_option autoImplicit false

/-! # The course of a request

When `handle_request` has answered its client it tells the processes in the channel one after
the other, and then forwards the request. The first failure ends all that: what is left in the
channel is lost, and `handle_data` answers the client a second time, with the error. `Course`
lists what can happen, and `writtenBy_course` is what is written then. -/

namespace Soros

open AccessManager (Call)

namespace RegistryServer

variable {Bytes : Type} (serde : Serde Bytes)

/-! ## How the rest of a request goes -/

/-- What comes after the answer: the accesses that are dealt with and, if something fails, the
number of the write by which `handle_data` answers again. -/
inductive Course (env : Env) (s : RegistryServer) (batch : List AccessGranted) :
    List AccessGranted → Option Nat → Prop where
  | done (hclear : Clear env s 1 batch)
      (hforward : s.backupStream.isSome → env.backupWrite = none) : Course env s batch batch none
  | forward (hclear : Clear env s 1 batch) (hbackup : s.backupStream.isSome)
      (hforward : env.backupWrite ≠ none) :
      Course env s batch batch (some (1 + writesFor s batch))
  | stops (dealt rest : List AccessGranted) (a : AccessGranted)
      (hbatch : batch = dealt ++ a :: rest) (hclear : Clear env s 1 dealt)
      (ha : ¬ Handled env s (1 + writesFor s dealt) a) :
      Course env s batch dealt
        (some (1 + writesFor s dealt + if (grantAnswer s a).isSome then 1 else 0))

theorem exists_course (env : Env) (s : RegistryServer) (batch : List AccessGranted) :
    ∃ dealt late, Course env s batch dealt late := by
  rcases clear_or_stops env s 1 batch with hclear | ⟨dealt, a, rest, hbatch, hdealt, ha⟩
  · by_cases hforward : s.backupStream.isSome → env.backupWrite = none
    · exact ⟨batch, none, .done hclear hforward⟩
    · push Not at hforward
      exact ⟨batch, _, .forward hclear hforward.1 hforward.2⟩
  · exact ⟨dealt, _, .stops dealt rest a hbatch hdealt ha⟩

theorem Course.withManager {env : Env} {s : RegistryServer} {batch dealt : List AccessGranted}
    {late : Option Nat} (h : Course env s batch dealt late) (m : AccessManager) :
    Course env { s with accessManager := m } batch dealt late := by
  cases h with
  | done hclear hforward => exact .done (hclear.withManager m) hforward
  | forward hclear hbackup hforward => exact .forward (hclear.withManager m) hbackup hforward
  | stops dealt rest a hbatch hclear ha =>
      exact .stops dealt rest a hbatch (hclear.withManager m) ha

theorem Course.dealt_prefix {env : Env} {s : RegistryServer} {batch dealt : List AccessGranted}
    {late : Option Nat} (h : Course env s batch dealt late) : ∃ rest, batch = dealt ++ rest := by
  cases h with
  | done | forward => exact ⟨[], (List.append_nil _).symm⟩
  | stops dealt rest a hbatch => exact ⟨a :: rest, hbatch⟩

/-- How `handle_request` ends: with an error if there is a write to answer it by. -/
def EndsAt (o : Outcome RegistryServerError Unit) (h : Host Bytes) : Option Nat → Prop
  | none => ∀ e, o ≠ .err e
  | some n => (∃ e, e ≠ .stopRequest ∧ o = .err e) ∧ h.clientWrites = n

section

variable {env : Env} {h : Host Bytes} {token : Token} {stream : TcpStream}

/-- The rest of `handle_request`, when the answer can be written. -/
theorem completeRequest_course {dealt : List AccessGranted} {late : Option Nat}
    (hstart : h.clientWrites = 0) (hstream : h.server.tokenStreamMap token = some stream)
    (hwrite : env.clientWrite stream 0 = none)
    (honly : GrantsOnly h.server.accessManager.accessGranted.buffer)
    (hcourse : Course env h.server h.server.accessManager.accessGranted.buffer dealt late)
    (data : Bytes) (response : RegistryResponse) :
    ∃ o h', (completeRequest serde env token data response).run h = (o, h') ∧
      h'.written = h.written
        ++ (stream, encode serde response) :: dealt.filterMap (delivery serde h.server) ∧
      EndsAt o h' late := by
  -- the channel has been emptied, and the next write is the second of the step
  obtain ⟨h₁, hh₁⟩ : ∃ h₁, h₁ = (h.wrote [(stream, encode serde response)]).withManager
    (drained h.server.accessManager) := ⟨_, rfl⟩
  have hfirst : h₁.clientWrites = 1 := by
    rw [hh₁]
    exact congrArg (· + 1) hstart
  have hwritten : ∀ batch : List AccessGranted,
      h₁.written ++ batch.filterMap (delivery serde h.server)
        = h.written ++ (stream, encode serde response) :: batch.filterMap (delivery serde h.server) := by
    intro batch
    rw [hh₁, List.append_cons]
    rfl
  have hclear₁ : ∀ {batch}, Clear env h.server 1 batch → Clear env h₁.server h₁.clientWrites batch := by
    intro batch hclear
    rw [hfirst, hh₁]
    exact hclear.withManager _
  have hsame : ∀ a n, Handled env h₁.server n a ↔ Handled env h.server n a := by
    intro a n
    rw [hh₁]
    exact Iff.rfl
  have hwrites : ∀ batch, writesFor h₁.server batch = writesFor h.server batch := by
    intro batch
    rw [hh₁]
    rfl
  have hdelivery : delivery serde h₁.server = delivery serde h.server := by
    rw [hh₁]
    rfl
  have hbackup₁ : h₁.server.backupStream = h.server.backupStream := by
    rw [hh₁]
    rfl
  have hrest : (completeRequest serde env token data response).run h
      = ((grantPending serde env h.server.accessManager.accessGranted.buffer) >>= fun _ =>
          forwardRequest env data >>= fun _ => countRequest).run h₁ := by
    have hanswer := handleResponse_run serde (hstart.symm ▸ hwrite) hstream response
    rw [completeRequest_answered serde hanswer, ← hh₁]
  cases hcourse with
  | done hclear hforward =>
      have hrun := completeRequest_run serde (hstart.symm ▸ hwrite) hstream
        (hstart.symm ▸ hclear) hforward data response
      refine ⟨_, _, hrun, ?_, fun e => ?_⟩
      · rw [List.append_cons]
        rfl
      · unfold lastOutcome
        split <;> simp
  | forward hclear hbackup hforward =>
      obtain ⟨e, he⟩ := Option.ne_none_iff_exists'.1 hforward
      have hrun := forwardRequest_run env data (h₁.wrote
        (h.server.accessManager.accessGranted.buffer.filterMap (delivery serde h.server)))
      rw [Host.wrote_server, hbackup₁, if_pos hbackup, he] at hrun
      rw [hrest, Exec.bind_ok (grantPending_clear serde (hclear₁ hclear)), hdelivery,
        Exec.bind_err hrun]
      refine ⟨_, _, rfl, hwritten _, ⟨_, by simp, rfl⟩, ?_⟩
      rw [← length_deliveries serde hclear, ← hfirst]
      rfl
  | stops dealt rest a hbatch hclear ha =>
      rw [← hsame, ← hwrites, ← hfirst] at ha
      obtain ⟨e, hstop, hrun⟩ := grantPending_stops serde rest (honly a (by simp [hbatch]))
        (hclear₁ hclear) ha
      rw [hrest, hbatch, Exec.bind_err hrun, hdelivery]
      refine ⟨_, _, rfl, hwritten dealt, ⟨e, hstop, rfl⟩, ?_⟩
      dsimp only
      rw [hfirst, hwrites]
      have hanswers : grantAnswer h₁.server a = grantAnswer h.server a := by
        rw [hh₁]
        rfl
      rw [hanswers]

/-- `handle_error` after a failure of `handle_request`. -/
theorem handleError_connected (env : Env) (hstream : h.server.tokenStreamMap token = some stream)
    (e : RegistryServerError) :
    ∃ answers, ((handleError serde env token e).run h).2.written = h.written ++ answers ∧
      (∀ w ∈ answers, w = (stream, encode serde (.error e.text))) ∧
      (answers ≠ [] ↔ env.clientWrite stream h.clientWrites = none) ∧ answers.length ≤ 1 := by
  rw [handleError, handleResponse_connected serde env hstream]
  cases hwrite : env.clientWrite stream h.clientWrites with
  | none => exact ⟨[(stream, encode serde (.error e.text))], rfl, by simp, by simp, by simp⟩
  | some e' => exact ⟨[], by simp, by simp, by simp, by simp⟩

/-- The state in which `handle_message` leaves the server. -/
theorem handleMessage_lock (env : Env) {data : Bytes} {message : Message}
    (hparse : serde.fromSlice data = .ok message) (h : Host Bytes) :
    ((handleMessage env message).run h).2
      = h.withManager (lockEffect serde env data h.server.accessManager) := by
  rw [handleMessage_state]
  unfold lockEffect requestIn
  rw [hparse]
  cases message with
  | data => rfl
  | registry message => cases message <;> rfl

theorem handleMessage_gave (env : Env) (message m : Message) (h : Host Bytes) :
    ((handleMessage env message).run (h.gave m)).1 = ((handleMessage env message).run h).1 := by
  cases message with
  | data => rfl
  | registry message =>
      cases message with
      | request p t k => rw [handleMessage_run, handleMessage_run, Host.gave_server]
      | connection | connectionEstablished | response | stopRequest => rfl

end

/-! ## What a step writes -/

section

variable {s : RegistryServer} {env : Env} {token : Token} {stream : TcpStream} {data : Bytes}
  {message : Message}

/-- What has been written when `handle_data` returns. -/
def writtenBy (s : RegistryServer) (env : Env) (token : Token) (data : Bytes) :
    List (TcpStream × Bytes) :=
  (step serde s (.readable env token (.data data))).2.flatMap Served.written

/-- The accesses in the channel when `handle_message` has returned. -/
def batchOf (s : RegistryServer) (env : Env) (data : Bytes) : List AccessGranted :=
  (lockEffect serde env data s.accessManager).accessGranted.buffer

/-- How `handle_message` ends. -/
def result (_serde : Serde Bytes) (s : RegistryServer) (env : Env) (message : Message) :
    Outcome RegistryServerError RegistryResponse :=
  ((handleMessage env message : Method Bytes _).run s.enter).1

/-- `handle_request` passes the message to `handle_message` and goes on with what that
returns. -/
theorem handleRequest_parsed (token : Token) (hparse : serde.fromSlice data = .ok message)
    {o : Outcome RegistryServerError RegistryResponse} (hresult : result serde s env message = o) :
    (handleRequest serde env token data).run s.enter
      = (handleMessage env message >>= completeRequest serde env token data).run
        (s.enter.gave message) ∧
    (handleMessage env message).run ((s.enter : Host Bytes).gave message)
      = (o, (s.enter.gave message).withManager (lockEffect serde env data s.accessManager)) := by
  refine ⟨?_, Prod.ext ((handleMessage_gave env message message s.enter).trans hresult) ?_⟩
  · rw [handleRequest_passed serde env ((passed_eq_some serde).2 hparse),
      Exec.bind_ok (note_run message _)]
  · exact handleMessage_lock serde env hparse _

theorem writtenBy_eq (hbackup : token ≠ s.backupToken)
    (hstream : s.tokenStreamMap token = some stream) :
    writtenBy serde s env token data = ((serveRequest serde env token data).run s.enter).2.written := by
  have hdata := handleData_data serde env (h := s.enter) hbackup
    (hstream ▸ Option.some_ne_none stream) data
  simp [writtenBy, step, Input.handle, hdata]

/-- A message that `handle_message` refuses. -/
theorem writtenBy_refused (hbackup : token ≠ s.backupToken)
    (hstream : s.tokenStreamMap token = some stream) (hparse : serde.fromSlice data = .ok message)
    {e : RegistryServerError} (herr : result serde s env message = .err e)
    (hstop : e ≠ .stopRequest) :
    (∀ w ∈ writtenBy serde s env token data, w = (stream, encode serde (.error e.text))) ∧
    (writtenBy serde s env token data ≠ [] ↔ env.clientWrite stream 0 = none) ∧
    (writtenBy serde s env token data).length ≤ 1 := by
  obtain ⟨hrequest, hmessage⟩ := handleRequest_parsed serde token hparse herr
  rw [Exec.bind_err hmessage] at hrequest
  obtain ⟨answers, hwritten, hall, hsome, hlength⟩ := handleError_connected serde env
    (h := (s.enter.gave message).withManager (lockEffect serde env data s.accessManager)) hstream e
  rw [writtenBy_eq serde hbackup hstream, serveRequest_error serde hrequest hstop, hwritten]
  exact ⟨hall, hsome, hlength⟩

/-- A message that `handle_message` accepts, when the answer cannot be written. -/
theorem writtenBy_unanswered (hbackup : token ≠ s.backupToken)
    (hstream : s.tokenStreamMap token = some stream) (hparse : serde.fromSlice data = .ok message)
    {response : RegistryResponse}
    (hok : result serde s env message = .ok response) (hwrite : env.clientWrite stream 0 ≠ none) :
    (∀ w ∈ writtenBy serde s env token data, ∃ text, w = (stream, encode serde (.error text))) ∧
    (writtenBy serde s env token data).length ≤ 1 := by
  obtain ⟨e, he⟩ := Option.ne_none_iff_exists'.1 hwrite
  obtain ⟨hrequest, hmessage⟩ := handleRequest_parsed serde token hparse hok
  have hanswer := handleResponse_connected serde env
    (h := (s.enter.gave message).withManager (lockEffect serde env data s.accessManager)) hstream
    response
  rw [show ((s.enter.gave message).withManager (lockEffect serde env data s.accessManager)).clientWrites = 0
    from rfl, he] at hanswer
  have hcomplete : completeRequest serde env token data response
      = handleResponse serde env token response >>= _ := rfl
  rw [Exec.bind_ok hmessage, hcomplete, Exec.bind_err hanswer] at hrequest
  obtain ⟨answers, hwritten, hall, -, hlength⟩ := handleError_connected serde env
    (h := { (s.enter.gave message).withManager (lockEffect serde env data s.accessManager) with
      clientWrites := 0 + 1 }) hstream (.ioError e)
  rw [writtenBy_eq serde hbackup hstream, serveRequest_error serde hrequest (by simp), hwritten]
  exact ⟨fun w hw => ⟨_, hall w hw⟩, hlength⟩

/-- **What is written for a message that `handle_message` accepts**, when the answer can be
written: the answer, the accesses that are dealt with, and perhaps an error. -/
theorem writtenBy_course (hbackup : token ≠ s.backupToken)
    (hstream : s.tokenStreamMap token = some stream) (hparse : serde.fromSlice data = .ok message)
    {response : RegistryResponse} (hok : result serde s env message = .ok response)
    (hwrite : env.clientWrite stream 0 = none) (honly : GrantsOnly (batchOf serde s env data))
    {dealt : List AccessGranted} {late : Option Nat}
    (hcourse : Course env s (batchOf serde s env data) dealt late) :
    ∃ answers, writtenBy serde s env token data = (stream, encode serde response)
        :: dealt.filterMap (delivery serde s) ++ answers ∧
      (∀ w ∈ answers, ∃ text, w = (stream, encode serde (.error text))) ∧
      (answers ≠ [] ↔ ∃ n, late = some n ∧ env.clientWrite stream n = none) := by
  obtain ⟨hrequest, hmessage⟩ := handleRequest_parsed serde token hparse hok
  obtain ⟨o, h', hrun, hwritten, hends⟩ := completeRequest_course serde
    (h := (s.enter.gave message).withManager (lockEffect serde env data s.accessManager)) rfl
    hstream hwrite honly (hcourse.withManager _) data response
  have hsettled := completeRequest_settled serde env token data response
    ((s.enter.gave message).withManager (lockEffect serde env data s.accessManager))
  rw [hrun] at hsettled
  rw [Exec.bind_ok hmessage, hrun] at hrequest
  have hwritten' : h'.written
      = (stream, encode serde response) :: dealt.filterMap (delivery serde s) := hwritten
  rw [writtenBy_eq serde hbackup hstream]
  -- an error before the end is answered as well, by `handle_error`
  cases late with
  | none =>
      refine ⟨[], ?_, by simp, by simp⟩
      rw [List.append_nil, ← hwritten']
      unfold serveRequest Exec.attempt
      rw [Exec.bind_run]
      dsimp only
      rw [hrequest]
      cases o with
      | err e => exact absurd rfl (hends e)
      | ok | panic | exit => rfl
  | some n =>
      obtain ⟨⟨e, hstop, rfl⟩, hcount⟩ := hends
      have hstream' : h'.server.tokenStreamMap token = some stream := by
        rw [hsettled.server]
        exact hstream
      obtain ⟨answers, hanswers, hall, hsome, -⟩ := handleError_connected serde env
        hstream' e
      refine ⟨answers, ?_, fun w hw => ⟨e.text, hall w hw⟩, ?_⟩
      · rw [serveRequest_error serde hrequest hstop, hanswers, hwritten']
      · rw [hsome, hcount]
        simp

end

end RegistryServer

end Soros
