import Soros.RegistryServer.Granting

set_option autoImplicit false

/-! # What the registry server writes and forwards

A step forwards at most the bytes it has read (`handleData_forwarded`). When nothing fails after
the answer, `handle_request` tells every pending process that gets in and is still there, and
forwards the request (`completeRequest_run`). When the access manager refuses, the client gets an
error and nothing else happens (`serveRequest_refused`). -/

namespace Soros

open AccessManager (Call)

namespace RegistryServer

variable {Bytes : Type} (serde : Serde Bytes) (env : Env)

open Exec (Keeps)

/-! ## At most the message is forwarded -/

/-- Between `h` and `h'` nothing has been forwarded. -/
def NothingForwarded (h h' : Host Bytes) : Prop := h'.forwarded = h.forwarded

instance : Std.Refl (NothingForwarded : Host Bytes → Host Bytes → Prop) := ⟨fun _ => rfl⟩

instance : IsTrans (Host Bytes) NothingForwarded := ⟨fun _ _ _ h h' => h'.trans h⟩

/-- Between `h` and `h'` at most `data` has been forwarded. -/
def AtMostForwarded (data : Bytes) (h h' : Host Bytes) : Prop :=
  h'.forwarded = h.forwarded ∨ h'.forwarded = h.forwarded ++ [data]

theorem atMost_after {α β : Type} {data : Bytes} {c : Method Bytes α} {f : α → Method Bytes β}
    (hc : Keeps NothingForwarded c) (hf : ∀ a, Keeps (AtMostForwarded data) (f a)) :
    Keeps (AtMostForwarded data) (c >>= f) := by
  refine hc.seq hf (fun _ _ h => Or.inl h) fun h h' h'' hno hmost => ?_
  rw [AtMostForwarded, hno] at hmost
  exact hmost

theorem atMost_before {α β : Type} {data : Bytes} {c : Method Bytes α} {f : α → Method Bytes β}
    (hc : Keeps (AtMostForwarded data) c) (hf : ∀ a, Keeps NothingForwarded (f a)) :
    Keeps (AtMostForwarded data) (c >>= f) := by
  refine hc.seq hf (fun _ _ h => h) fun h h' h'' hmost hno => ?_
  rw [AtMostForwarded, hno]
  exact hmost

theorem writeAll_forwarded (stream : TcpStream) (data : Bytes) :
    Keeps NothingForwarded (writeAll env stream data) := by
  intro h
  rw [writeAll_run]
  cases env.clientWrite stream h.clientWrites <;> rfl

theorem handleResponse_forwarded (token : Token) (response : RegistryResponse) :
    Keeps NothingForwarded (handleResponse serde env token response) := by
  refine .bind .get fun h => ?_
  cases h.server.tokenStreamMap token with
  | none => exact .throw _
  | some stream => exact writeAll_forwarded env stream _

theorem deliver_forwarded (a : AccessGranted) : Keeps NothingForwarded (deliver serde env a) := by
  refine .bind (fun h => congrArg Host.forwarded (grantResponse_state a h)) fun response => ?_
  refine .bind (handleResponse_forwarded serde env _ _).attempt fun r => ?_
  rcases r with (_ | _) | _ <;> first | exact .pure _ | exact .throw _

theorem grantPending_forwarded (requests : List AccessGranted) :
    Keeps NothingForwarded (grantPending serde env requests) := by
  induction requests with
  | nil => exact .pure _
  | cons a requests ih => exact .bind (deliver_forwarded serde env a) fun _ => ih

theorem forwardRequest_forwarded (data : Bytes) :
    Keeps (AtMostForwarded data) (forwardRequest env data) := by
  intro h
  rw [forwardRequest_run]
  split
  · cases env.backupWrite with
    | none => exact Or.inr rfl
    | some e => exact Or.inl rfl
  · exact Or.inl rfl

theorem countRequest_forwarded : Keeps NothingForwarded (countRequest : Method Bytes _) :=
  .bind (.modify fun _ => rfl) fun _ => .bind .get fun _ => .ite (.exit _) (.pure _)

theorem completeRequest_forwarded (token : Token) (data : Bytes) (response : RegistryResponse) :
    Keeps (AtMostForwarded data) (completeRequest serde env token data response) :=
  -- nothing, then at most the data, then nothing
  atMost_after (handleResponse_forwarded serde env token response) fun _ =>
    atMost_after (fun _ => rfl) fun requests =>
      atMost_after (grantPending_forwarded serde env requests) fun _ =>
        atMost_before (forwardRequest_forwarded env data) fun _ => countRequest_forwarded

theorem handleRequest_forwarded (token : Token) (data : Bytes) :
    Keeps (AtMostForwarded data) (handleRequest serde env token data) := by
  have hparse : Keeps NothingForwarded (parse serde data) := by
    intro h
    rw [parse_run]
    cases serde.fromSlice data with
    | ok message => rfl
    | error text =>
        dsimp only
        split <;> rfl
  have hmessage : ∀ message, Keeps NothingForwarded (handleMessage env message : Method Bytes _) := by
    intro message h
    rw [handleMessage_state]
    split <;> rfl
  exact atMost_after hparse fun message => atMost_after (fun _ => rfl) fun _ =>
    atMost_after (hmessage message) fun response =>
      completeRequest_forwarded serde env token data response

theorem serveRequest_forwarded (token : Token) (data : Bytes) :
    Keeps (AtMostForwarded data) (serveRequest serde env token data) := by
  refine atMost_before (handleRequest_forwarded serde env token data).attempt fun r => ?_
  cases r with
  | ok => exact .pure _
  | error err =>
      cases err with
      | stopRequest => exact .throw _
      | ioError | serializationError | unexpectedRequest | accessManager | invalidToken
      | unknownHolder => exact handleResponse_forwarded serde env token _

/-- **A step forwards at most what it has read**, and only as the request of a client. -/
theorem handleData_forwarded (token : Token) (read : ReadResult Bytes) (h : Host Bytes) :
    ((handleData serde env token read).run h).2.forwarded = h.forwarded ∨
    ∃ data, read = .data data ∧ token ≠ h.server.backupToken ∧
      h.server.tokenStreamMap token ≠ none ∧
      ((handleData serde env token read).run h).2.forwarded = h.forwarded ++ [data] := by
  unfold handleData
  rw [Exec.bind_ok (Exec.get_run h)]
  dsimp only
  split
  · exact Or.inl rfl
  · rename_i stream hstream
    cases read with
    | eof => exact Or.inl (by dsimp only [handleRead]; split <;> rfl)
    | failed e => exact Or.inl (by dsimp only [handleRead]; split <;> rfl)
    | data data =>
        by_cases hbackup : token = h.server.backupToken
        · refine Or.inl ?_
          simp only [hbackup, handleRead]
          simp
        · rw [if_neg (by simpa using hbackup)] at hstream
          have hmost := serveRequest_forwarded serde env token data h
          have hread : handleRead serde env token (token == h.server.backupToken) (.data data)
              = serveRequest serde env token data := by
            simp [handleRead, hbackup]
          rw [hread]
          rcases hmost with hno | hone
          · exact Or.inl hno
          · exact Or.inr ⟨data, rfl, hbackup, by simp [hstream], hone⟩

theorem handleConnection_forwarded (stream : TcpStream) (addr : SocketAddr) (h : Host Bytes) :
    AtMostForwarded (serde.toVec (.registry (.connectionEstablished (h.server.idCounter + 1)))) h
      ((handleConnection serde env stream addr).run h).2 := by
  have hupdate : ∀ f, Keeps NothingForwarded (update f : Method Bytes _) :=
    fun f => .modify fun _ => rfl
  have hregister : Keeps NothingForwarded (register env : Method Bytes _) := by
    unfold register
    cases env.register with
    | none => exact .pure _
    | some e => exact .throw _
  unfold handleConnection
  rw [Exec.bind_ok (Exec.get_run h)]
  dsimp only
  split
  · exact Or.inl (Keeps.bind (hupdate _) (fun _ => .bind hregister fun _ => hupdate _) h)
  · exact atMost_after (hupdate _) (fun _ => atMost_after hregister fun _ =>
      atMost_after (writeAll_forwarded env stream _) fun _ => atMost_after (hupdate _) fun _ =>
        forwardRequest_forwarded env _) h

/-! ## A request that nothing stops -/

/-- `handle_request` once its answer and everything it delivers has been written: the channel
is empty, the message forwarded and the request counted. -/
def completed (h : Host Bytes) (stream : TcpStream) (response : RegistryResponse)
    (data : Bytes) : Host Bytes :=
  let h' := (h.wrote [(stream, encode serde response)]).wrote
    (h.server.accessManager.accessGranted.buffer.filterMap (delivery serde h.server))
  { h' with
    server := { h.server with
      accessManager := drained h.server.accessManager
      requestCounter := h.server.requestCounter + 1 }
    forwarded := h.forwarded ++ if h.server.backupStream.isSome then [data] else [] }

/-- How `handle_request` ends when nothing has failed: the primary server leaves after its first
request. -/
def lastOutcome (s : RegistryServer) : Outcome RegistryServerError Unit :=
  if s.backupStream.isSome && s.requestCounter + 1 == 1 then .exit 0 else .ok ()

theorem countRequest_run (h : Host Bytes) :
    countRequest.run h = (lastOutcome h.server,
      { h with server := { h.server with requestCounter := h.server.requestCounter + 1 } }) := by
  unfold countRequest lastOutcome
  rw [Exec.bind_ok (update_run _ h), Exec.bind_ok (Exec.get_run _)]
  dsimp only
  split <;> rfl

/-- What comes after the answer, in a host whose channel has been emptied. -/
theorem completeRequest_answered {env : Env} {h : Host Bytes} {token : Token} {stream : TcpStream}
    {response : RegistryResponse}
    (hanswer : (handleResponse serde env token response).run h
      = (.ok (), h.wrote [(stream, encode serde response)])) (data : Bytes) :
    (completeRequest serde env token data response).run h
      = (grantPending serde env h.server.accessManager.accessGranted.buffer >>= fun _ =>
          forwardRequest env data >>= fun _ => countRequest).run
        ((h.wrote [(stream, encode serde response)]).withManager
          (drained h.server.accessManager)) := by
  have htake : ((onManager AccessManager.tryIter).mapErr .accessManager : Method Bytes _).run
      (h.wrote [(stream, encode serde response)])
      = (.ok h.server.accessManager.accessGranted.buffer,
        (h.wrote [(stream, encode serde response)]).withManager
          (drained h.server.accessManager)) := rfl
  unfold completeRequest
  rw [Exec.bind_ok hanswer, Exec.bind_ok htake]

/-- **The rest of `handle_request` when nothing fails.** -/
theorem completeRequest_run {env : Env} {h : Host Bytes} {token : Token} {stream : TcpStream}
    (hwrite : env.clientWrite stream h.clientWrites = none)
    (hstream : h.server.tokenStreamMap token = some stream)
    (hclear : Clear env h.server (h.clientWrites + 1) h.server.accessManager.accessGranted.buffer)
    (hbackup : h.server.backupStream.isSome → env.backupWrite = none) (data : Bytes)
    (response : RegistryResponse) :
    (completeRequest serde env token data response).run h
      = (lastOutcome h.server, completed serde h stream response data) := by
  have hgrant := grantPending_clear serde
    (h := (h.wrote [(stream, encode serde response)]).withManager (drained h.server.accessManager))
    (hclear.withManager _)
  have hforward : ∀ h' : Host Bytes, h'.server.backupStream = h.server.backupStream →
      (forwardRequest env data).run h' = (.ok (), { h' with
        forwarded := h'.forwarded ++ if h'.server.backupStream.isSome then [data] else [] }) := by
    intro h' hsame
    rw [forwardRequest_run]
    split
    · rename_i hsome
      rw [hbackup (hsame ▸ hsome)]
    · simp
  rw [completeRequest_answered serde (handleResponse_run serde hwrite hstream response),
    Exec.bind_ok hgrant, Exec.bind_ok (hforward _ ?_), countRequest_run]
  · rfl
  · rfl

theorem handleRequest_run {env : Env} {h : Host Bytes} {token : Token} {data : Bytes}
    {p : ProcId} {t : RequestType} {k : KeyId} (hreq : requestIn serde data = some (p, t, k)) :
    (handleRequest serde env token data).run h
      = match h.server.answer t k
          (((callOf p t k).invoke env.iter).run h.server.accessManager).1 with
        | .ok response => (completeRequest serde env token data response).run
            ((h.gave (.registry (.request p t k))).withManager
              (lockEffect serde env data h.server.accessManager))
        | .err e => (.err e, (h.gave (.registry (.request p t k))).withManager
            (lockEffect serde env data h.server.accessManager))
        | .panic msg => (.panic msg, (h.gave (.registry (.request p t k))).withManager
            (lockEffect serde env data h.server.accessManager))
        | .exit code => (.exit code, (h.gave (.registry (.request p t k))).withManager
            (lockEffect serde env data h.server.accessManager)) := by
  have hparse : (parse serde data).run h = (.ok (.registry (.request p t k)), h) := by
    rw [parse_run, fromSlice_request serde hreq]
  unfold handleRequest lockEffect
  rw [Exec.bind_ok hparse, Exec.bind_ok (note_run _ h), Exec.bind_run, handleMessage_run, hreq]
  simp only [Host.gave_server]
  cases h.server.answer t k (((callOf p t k).invoke env.iter).run h.server.accessManager).1 <;> rfl

/-- **A request that nothing stops** is answered, the processes it lets in are told, and it is
forwarded. -/
theorem serveRequest_run {env : Env} {h : Host Bytes} {token : Token} {stream : TcpStream}
    {data : Bytes} {p : ProcId} {t : RequestType} {k : KeyId} {response : RegistryResponse}
    (hreq : requestIn serde data = some (p, t, k))
    (hanswer : h.server.answer t k
      (((callOf p t k).invoke env.iter).run h.server.accessManager).1 = .ok response)
    (hopen : Open env h.server) (hbackup : env.backupWrite = none)
    (hstream : h.server.tokenStreamMap token = some stream)
    (hgrants : ∀ a ∈ (lockEffect serde env data h.server.accessManager).accessGranted.buffer,
      (grantAnswer h.server a).isSome) :
    ((serveRequest serde env token data).run h).2
      = completed serde ((h.gave (.registry (.request p t k))).withManager
          (lockEffect serde env data h.server.accessManager)) stream response data := by
  have hrun : (handleRequest serde env token data).run h = _ := handleRequest_run serde hreq
  rw [hanswer] at hrun
  dsimp only at hrun
  rw [completeRequest_run serde (h := (h.gave (.registry (.request p t k))).withManager
      (lockEffect serde env data h.server.accessManager)) (hopen _ _ hstream _) hstream
    ((clear_of_writes hopen hgrants _).withManager _) fun _ => hbackup] at hrun
  unfold lastOutcome at hrun
  unfold serveRequest
  split at hrun
  · rw [Exec.bind_run]
    unfold Exec.attempt
    simp only [hrun]
  · rw [Exec.bind_ok (Exec.attempt_ok hrun)]
    rfl

/-- An error of `handle_request` is answered. -/
theorem serveRequest_error {env : Env} {token : Token} {data : Bytes}
    {e : RegistryServerError} {h h' : Host Bytes}
    (hrun : (handleRequest serde env token data).run h = (.err e, h')) (hstop : e ≠ .stopRequest) :
    (serveRequest serde env token data).run h = (handleError serde env token e).run h' := by
  unfold serveRequest
  rw [Exec.bind_ok (Exec.attempt_err hrun)]
  cases e with
  | stopRequest => exact absurd rfl hstop
  | ioError | serializationError | unexpectedRequest | accessManager | invalidToken
  | unknownHolder => rfl

/-- A refused request is answered with the error and has no other effect. -/
theorem serveRequest_refused {env : Env} {h : Host Bytes} {token : Token} {stream : TcpStream}
    {data : Bytes} {p : ProcId} {t : RequestType} {k : KeyId} {e : RegistryServerError}
    (hreq : requestIn serde data = some (p, t, k))
    (hanswer : h.server.answer t k
      (((callOf p t k).invoke env.iter).run h.server.accessManager).1 = .err e)
    (hstop : e ≠ .stopRequest)
    (hopen : Open env h.server) (hstream : h.server.tokenStreamMap token = some stream) :
    (serveRequest serde env token data).run h
      = (.ok (), ((h.gave (.registry (.request p t k))).withManager
          (lockEffect serde env data h.server.accessManager)).wrote
            [(stream, encode serde (.error e.text))]) := by
  have hrun : (handleRequest serde env token data).run h = _ := handleRequest_run serde hreq
  rw [hanswer] at hrun
  rw [serveRequest_error serde hrun hstop]
  exact handleResponse_run serde
    (h := (h.gave (.registry (.request p t k))).withManager
      (lockEffect serde env data h.server.accessManager)) (hopen _ _ hstream _) hstream
    (.error e.text)

/-- `handle_data` on the request of a client. -/
theorem handleData_data {h : Host Bytes} {token : Token} (hbackup : token ≠ h.server.backupToken)
    (hstream : h.server.tokenStreamMap token ≠ none) (data : Bytes) :
    (handleData serde env token (.data data)).run h = (serveRequest serde env token data).run h := by
  obtain ⟨stream, hsome⟩ := Option.ne_none_iff_exists'.1 hstream
  have hne : (token == h.server.backupToken) = false := by simpa using hbackup
  unfold handleData
  rw [Exec.bind_ok (Exec.get_run h)]
  simp only [hne, hsome]
  rfl

/-! ## What is written, whatever fails -/

/-- Between `h` and `h'` nothing has been written, and the server is the same. -/
structure NothingWritten (h h' : Host Bytes) : Prop where
  written : h'.written = h.written
  buffer : h'.server.accessManager.accessGranted = h.server.accessManager.accessGranted

instance : Std.Refl (NothingWritten : Host Bytes → Host Bytes → Prop) := ⟨fun _ => ⟨rfl, rfl⟩⟩

instance : IsTrans (Host Bytes) NothingWritten :=
  ⟨fun _ _ _ h h' => ⟨h'.written.trans h.written, h'.buffer.trans h.buffer⟩⟩

theorem forwardRequest_written (data : Bytes) : Keeps NothingWritten (forwardRequest env data) := by
  refine .bind .get fun h => .ite ?_ (.pure _)
  cases env.backupWrite with
  | none => exact .modify fun _ => ⟨rfl, rfl⟩
  | some e => exact .throw _

theorem countRequest_written : Keeps NothingWritten (countRequest : Method Bytes _) := by
  refine .bind (.modify fun _ => ⟨rfl, rfl⟩) fun _ => .bind .get fun h => ?_
  exact .ite (.exit _) (.pure _)

/-- A response is written, or it is not and the step has failed. -/
theorem handleResponse_cases (token : Token) (response : RegistryResponse) (h : Host Bytes) :
    (∃ stream, (handleResponse serde env token response).run h
      = (.ok (), h.wrote [(stream, encode serde response)])) ∨
    ∃ e h', (handleResponse serde env token response).run h = (.err e, h') ∧
      NothingWritten h h' := by
  unfold handleResponse
  rw [Exec.bind_ok (Exec.get_run h)]
  cases hstream : h.server.tokenStreamMap token with
  | none => exact Or.inr ⟨_, _, rfl, rfl, rfl⟩
  | some stream =>
      dsimp only
      rw [writeAll_run]
      cases env.clientWrite stream h.clientWrites with
      | none => exact Or.inl ⟨stream, rfl⟩
      | some e => exact Or.inr ⟨_, _, rfl, rfl, rfl⟩

/-- What `serve_request` writes: an answer, what it delivers, and perhaps an error. -/
structure Writes (h : Host Bytes) (buffer : List AccessGranted) (h' : Host Bytes) : Prop where
  written : ∃ first late, h'.written
    = h.written ++ first ++ buffer.filterMap (delivery serde h.server) ++ late ∧
    first.length ≤ 1 ∧ (first = [] → buffer = []) ∧
    ∀ w ∈ late, ∃ text, w.2 = encode serde (.error text)
  empty : h'.server.accessManager.accessGranted.buffer = []

/-- Nothing stops the delivery of the accesses in the channel, if there are any. -/
def Delivers (env : Env) (s : RegistryServer) (token : Token) (buffer : List AccessGranted) : Prop :=
  buffer = [] ∨ Open env s ∧ (s.tokenStreamMap token).isSome ∧
    ∀ a ∈ buffer, (grantAnswer s a).isSome

theorem completeRequest_writes {h : Host Bytes} {token : Token}
    (hdelivers : Delivers env h.server token h.server.accessManager.accessGranted.buffer)
    (data : Bytes) (response : RegistryResponse) :
    Writes serde h h.server.accessManager.accessGranted.buffer
      ((completeRequest serde env token data response).run h).2 := by
  have hrest : Keeps NothingWritten (do forwardRequest env data; countRequest) :=
    .bind (forwardRequest_written env data) fun _ => countRequest_written
  rcases handleResponse_cases serde env token response h with ⟨stream, hok⟩ | ⟨e, h', herr, hno⟩
  · have hclear : Clear env h.server (h.clientWrites + 1)
        h.server.accessManager.accessGranted.buffer := by
      rcases hdelivers with hempty | ⟨hopen, -, hgrants⟩
      · rw [hempty]
        trivial
      · exact clear_of_writes hopen hgrants _
    have hgrant := grantPending_clear serde
      (h := (h.wrote [(stream, encode serde response)]).withManager
        (drained h.server.accessManager)) (hclear.withManager _)
    rw [completeRequest_answered serde hok, Exec.bind_ok hgrant]
    obtain ⟨hwritten, hbuffer⟩ := hrest (((h.wrote [(stream, encode serde response)]).withManager
      (drained h.server.accessManager)).wrote
        (h.server.accessManager.accessGranted.buffer.filterMap (delivery serde h.server)))
    refine ⟨⟨[(stream, encode serde response)], [], ?_, by simp, by simp, by simp⟩, ?_⟩
    · refine hwritten.trans ?_
      rw [List.append_nil]
      rfl
    · exact congrArg Channel.buffer hbuffer
  · -- only if there was nothing to deliver
    have hempty : h.server.accessManager.accessGranted.buffer = [] := by
      rcases hdelivers with hempty | ⟨hopen, hstream, -⟩
      · exact hempty
      · obtain ⟨stream, hsome⟩ := Option.isSome_iff_exists.1 hstream
        rw [handleResponse_run serde (hopen _ _ hsome _) hsome] at herr
        cases herr
    unfold completeRequest
    rw [Exec.bind_err herr, hempty]
    exact ⟨⟨[], [], by simp [hno.written], by simp, by simp, by simp⟩, by rw [hno.buffer, hempty]⟩

/-- An error is all that is written after a request. -/
theorem serveRequest_writes {h : Host Bytes} {token : Token} {data : Bytes}
    {buffer : List AccessGranted}
    (hrequest : Writes serde h buffer ((handleRequest serde env token data).run h).2) :
    Writes serde h buffer ((serveRequest serde env token data).run h).2 := by
  unfold serveRequest Exec.attempt
  rw [Exec.bind_run]
  dsimp only
  generalize (handleRequest serde env token data).run h = r at hrequest ⊢
  obtain ⟨o, h₁⟩ := r
  obtain ⟨⟨first, late, hwritten, hfirst, hnone, hlate⟩, hempty⟩ := hrequest
  dsimp only at hwritten hempty
  cases o with
  | ok | panic | exit => exact ⟨⟨first, late, hwritten, hfirst, hnone, hlate⟩, hempty⟩
  | err e =>
      have herror : Writes serde h buffer ((handleError serde env token e).run h₁).2 := by
        rcases handleResponse_cases serde env token (.error e.text) h₁ with
          ⟨stream, hok⟩ | ⟨e', h₂, herr, hno⟩
        · rw [handleError, hok]
          refine ⟨⟨first, late ++ [(stream, encode serde (.error e.text))], ?_, hfirst, hnone,
            fun w hw => ?_⟩, hempty⟩
          · simp only [Host.wrote, hwritten, List.append_assoc]
          · rcases List.mem_append.1 hw with hw | hw
            · exact hlate w hw
            · obtain rfl := List.mem_singleton.1 hw
              exact ⟨e.text, rfl⟩
        · rw [handleError, herr]
          exact ⟨⟨first, late, hno.written.trans hwritten, hfirst, hnone, hlate⟩,
            (congrArg Channel.buffer hno.buffer).trans hempty⟩
      cases e with
      | stopRequest => exact ⟨⟨first, late, hwritten, hfirst, hnone, hlate⟩, hempty⟩
      | ioError | serializationError | unexpectedRequest | accessManager | invalidToken
      | unknownHolder => exact herror

/-- A new connection gets one message at most, which tells it its token. -/
theorem handleConnection_writes (stream : TcpStream) (addr : SocketAddr) (h : Host Bytes) :
    ∃ first, ((handleConnection serde env stream addr).run h).2.written = h.written ++ first ∧
      (first = [] ∨ first = [(stream, serde.toVec (.registry (.connection h.server.nextToken)))]) := by
  unfold handleConnection
  rw [Exec.bind_ok (Exec.get_run h)]
  dsimp only
  split
  · refine ⟨[], ?_, Or.inl rfl⟩
    cases hregister : env.register <;> simp [register, hregister, Exec.bind_run, update_run]
  · rename_i hfirst
    rw [Exec.bind_ok (update_run _ h)]
    cases hregister : env.register with
    | some e =>
        refine ⟨[], ?_, Or.inl rfl⟩
        simp [register, hregister, Exec.bind_run]
    | none =>
        simp only [register, hregister]
        rw [Exec.bind_ok (Exec.pure_run () _), Exec.bind_run, writeAll_run]
        cases env.clientWrite stream h.clientWrites with
        | some e => exact ⟨[], by simp, Or.inl rfl⟩
        | none =>
            dsimp only
            rw [Exec.bind_ok (update_run _ _), (forwardRequest_written env _ _).written]
            refine ⟨[_], rfl, Or.inr ?_⟩
            rw [nextToken, if_neg hfirst]

/-- Nothing is written unless a message of a client has been read. -/
theorem handleData_quiet {token : Token} {read : ReadResult Bytes} {h : Host Bytes}
    (hquiet : (∀ data, read ≠ .data data) ∨ token = h.server.backupToken ∨
      h.server.tokenStreamMap token = none) :
    ((handleData serde env token read).run h).2.written = h.written := by
  unfold handleData
  rw [Exec.bind_ok (Exec.get_run h)]
  dsimp only
  split
  · rfl
  · rename_i stream hstream
    cases read with
    | eof =>
        dsimp only [handleRead]
        split <;> rfl
    | failed e =>
        dsimp only [handleRead]
        split <;> rfl
    | data data =>
        have hbackup : token = h.server.backupToken := by
          rcases hquiet with hno | hbackup | hnone
          · exact absurd rfl (hno data)
          · exact hbackup
          · by_contra hne
            rw [if_neg (by simpa using hne), hnone] at hstream
            cases hstream
        simp [handleRead, hbackup]

end RegistryServer

end Soros
