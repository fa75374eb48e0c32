import Soros.P2PServer.Panics
import Soros.P2PServer.Sharing

set_option autoImplicit false

/-! # Runs of the peer-to-peer server

`bind` accepts peers and answers what they send, while the client that the server belongs to goes
on changing the data. A run is any sequence of these steps. In every run, whatever is written on a
socket answers the request that has just been read from it, with what the client has stored last
under the key (`answers_latest`).

The loop logs what goes wrong with a peer. It ends by a peer that cannot be registered with the
poll, by bytes that are no text, and by a failure of the poll or the listener (`serving_iff`); a
peer that resets its connection or cannot be written to does it no harm. -/

namespace Soros

namespace P2PServer

variable {Bytes : Type} (serde : Serde Bytes)

/-- One step: the loop polls or accepts in vain, it takes a connection or a readable socket, or
the client calls a method of the data store. -/
inductive Input (Bytes : Type) where
  | pollFailed (e : IoError)
  | acceptFailed (e : IoError)
  | connection (env : Env) (stream : TcpStream)
  | readable (env : Env) (token : Token) (read : ReadResult Bytes)
  | store (c : DataStore.Call)

/-- Where `bind` stands: in its loop, or it has returned an error, or its thread has panicked. -/
inductive Bind where
  | serving (self : P2PServer)
  | returned (self : P2PServer) (e : P2PServerError)
  | gone (self : P2PServer)

def Bind.server : Bind → P2PServer
  | .serving self | .returned self _ | .gone self => self

/-- The client changes its data, wherever `bind` stands. -/
def Bind.withStore (b : Bind) (dataStore : DataStore) : Bind :=
  match b with
  | .serving self => .serving { self with dataStore }
  | .returned self e => .returned { self with dataStore } e
  | .gone self => .gone { self with dataStore }

inductive Event (Bytes : Type) where
  | stored (c : DataStore.Call) (outcome : Outcome DataStoreError (Option String))
  | connected (stream : TcpStream)
  /-- What has been read under a token, and written then. -/
  | read (token : Token) (read : ReadResult Bytes) (written : List (TcpStream × Bytes))

/-- A peer is to be taken: errors end the loop. -/
def resumeConnection (self : P2PServer) : Outcome P2PServerError Unit → Bind
  | .ok () => .serving self
  | .err e => .returned self e
  | .panic _ => .gone self
  | .exit _ => .gone self

/-- A peer has sent something: errors are logged. -/
def resumeData (self : P2PServer) : Outcome P2PServerError Unit → Bind
  | .ok () => .serving self
  | .err _ => .serving self
  | .panic _ => .gone self
  | .exit _ => .gone self

def step (b : Bind) : Input Bytes → Bind × List (Event Bytes)
  | .store c =>
      let r := c.method.run b.server.dataStore
      (b.withStore r.2, [.stored c r.1])
  -- "Error while polling"
  | .pollFailed _ =>
      match b with
      | .serving self => (.gone self, [])
      | b => (b, [])
  | .acceptFailed e =>
      match b with
      -- "Unexpected error", unless no connection is left
      | .serving self => (if e.kind = .wouldBlock then .serving self else .gone self, [])
      | b => (b, [])
  | .connection env stream =>
      match b with
      | .serving self =>
          let r := (handleConnection env stream : Method Bytes Unit).run self.enter
          (resumeConnection r.2.server r.1, [.connected stream])
      | b => (b, [])
  | .readable env token read =>
      match b with
      | .serving self =>
          -- the poll reports sockets that are registered with it
          if (self.tokenStreamMap token).isSome then
            let r := (handleData serde env token read).run self.enter
            (resumeData r.2.server r.1, [.read token read r.2.written])
          else (b, [])
      | b => (b, [])

/-- `bind` on an empty store, once the listener is bound. -/
def bind (peerAddr : SocketAddr) : IOMachine Bind (Input Bytes) (Event Bytes) where
  start := .serving (new DataStore.new peerAddr)
  step := step serde

/-! ## What the log says -/

/-- How an event changes what is stored under the key. -/
def Event.stores (k : KeyId) (o : Option String) : Event Bytes → Option String
  | .stored (.create key data) (.ok _) => if key = k then some data else o
  | .stored (.write key newData) (.ok _) => if key = k then some newData else o
  | .stored (.delete key) (.ok _) => if key = k then none else o
  | _ => o

/-- What the client has stored last under the key. -/
def latest (k : KeyId) (log : List (Event Bytes)) : Option String := log.foldl (Event.stores k) none

/-- The connections, in the order in which they have been made. -/
def connections (log : List (Event Bytes)) : List TcpStream :=
  log.filterMap fun
    | .connected stream => some stream
    | _ => none

/-- **What is written** answers the request that has been read, with what is stored last under
the key, on the connection under whose token it has been read. -/
def Answers (pre : List (Event Bytes)) : Event Bytes → Prop
  | .read token read written =>
      written = [] ∨ ∃ data key value stream, read = .data data ∧
        serde.fromSlice data = .ok (.data (.request key)) ∧ latest key pre = some value ∧
        1 ≤ token ∧ (connections pre)[token - 1]? = some stream ∧
        written = [(stream, serde.toVec (.data (.response value)))]
  | _ => True

/-- The server is what the log says. -/
structure Tracks (s : P2PServer) (log : List (Event Bytes)) : Prop where
  store : ∀ k, s.dataStore.dataMap k = latest k log
  counter : s.tokenCounter = (connections log).length
  streams : ∀ token stream, s.tokenStreamMap token = some stream →
    1 ≤ token ∧ (connections log)[token - 1]? = some stream

variable {s : P2PServer} {log : List (Event Bytes)}

theorem latest_concat (k : KeyId) (log : List (Event Bytes)) (e : Event Bytes) :
    latest k (log ++ [e]) = Event.stores k (latest k log) e := by
  simp [latest, List.foldl_append]

/-! ## One step -/

/-- The data store after a method is what the event of the method says. -/
theorem method_stores (c : DataStore.Call) (d : DataStore) (k : KeyId) :
    (c.method.run d).2.dataMap k
      = Event.stores k (d.dataMap k) (.stored c (c.method.run d).1 : Event Bytes) := by
  cases c with
  | create key data =>
      show Function.update d.dataMap key (some data) k = if key = k then some data else d.dataMap k
      rw [Function.update_apply, eq_comm]
      simp only [eq_comm]
  | delete key =>
      show Function.update d.dataMap key none k = if key = k then none else d.dataMap k
      rw [Function.update_apply, eq_comm]
      simp only [eq_comm]
  | write key newData =>
      rw [DataStore.Call.method, Exec.bind_run, DataStore.write_run]
      cases hkey : d.dataMap key with
      | none => rfl
      | some data =>
          show Function.update d.dataMap key (some newData) k
            = if key = k then some newData else d.dataMap k
          rw [Function.update_apply, eq_comm]
          simp only [eq_comm]
  | get key =>
      rw [DataStore.Call.method, Exec.bind_run, DataStore.get_run]
      cases d.dataMap key <;> rfl

theorem handleConnection_run (env : Env) (stream : TcpStream) (s : P2PServer) :
    (handleConnection env stream : Method Bytes Unit).run s.enter = match env.register with
      | none => (.ok (), enter { s with
          tokenCounter := s.tokenCounter + 1
          tokenStreamMap := Function.update s.tokenStreamMap (s.tokenCounter + 1) (some stream) })
      | some e => (.err (.ioError e), enter { s with tokenCounter := s.tokenCounter + 1 }) := by
  unfold handleConnection register
  cases env.register <;> rfl

/-- Only a request for what is there has a reply. -/
theorem reply_ok {d : DataStore} {message : Message} {response : DataMessage}
    (h : reply d message = .ok response) : ∃ key value, message = .data (.request key) ∧
      d.dataMap key = some value ∧ response = .response value := by
  unfold reply at h
  split at h
  · rename_i key
    split at h
    · cases h
    · rename_i value hvalue
      cases h
      exact ⟨key, value, rfl, hvalue, rfl⟩
  · cases h

/-- What `handle_request` changes: nothing, unless it answers. -/
theorem handleRequest_state (env : Env) (token : Token) (data : Bytes) (h : P2PHost Bytes) :
    ((handleRequest serde env token data).run h).2 = h ∨
      ∃ key value stream, serde.fromSlice data = .ok (.data (.request key)) ∧
        h.server.dataStore.dataMap key = some value ∧ h.server.tokenStreamMap token = some stream ∧
        ((handleRequest serde env token data).run h).2
          = { h with written := h.written ++ [(stream, serde.toVec (.data (.response value)))] } := by
  unfold handleRequest
  rw [Exec.bind_run, parse_run]
  cases hparse : serde.fromSlice data with
  | error text =>
      dsimp only
      cases serde.isUtf8 data <;> exact Or.inl rfl
  | ok message =>
      dsimp only
      rw [Exec.bind_run, handleMessage_run]
      cases hreply : reply h.server.dataStore message with
      | err | panic | exit => exact Or.inl rfl
      | ok response =>
          obtain ⟨key, value, rfl, hvalue, rfl⟩ := reply_ok hreply
          dsimp only
          rw [Exec.bind_ok (Exec.get_run h)]
          cases hstream : h.server.tokenStreamMap token with
          | none => exact Or.inl rfl
          | some stream =>
              dsimp only
              unfold writeAll
              cases env.write with
              | some e => exact Or.inl rfl
              | none => exact Or.inr ⟨key, value, stream, rfl, hvalue, rfl, rfl⟩

/-- What `handle_data` makes of a peer that is there. -/
structure Handled (s : P2PServer) (token : Token) (stream : TcpStream) (read : ReadResult Bytes)
    (r : Outcome P2PServerError Unit × P2PHost Bytes) : Prop where
  server : r.2.server = s ∨
    r.2.server = { s with tokenStreamMap := Function.update s.tokenStreamMap token none }
  written : r.2.written = [] ∨ ∃ data key value, read = .data data ∧
    serde.fromSlice data = .ok (.data (.request key)) ∧ s.dataStore.dataMap key = some value ∧
    r.2.written = [(stream, serde.toVec (.data (.response value)))]
  returns : r.1.Returns ↔ ∀ data, read = .data data → RegistryServer.Legible serde data

theorem handleData_handled (env : Env) {token : Token} {stream : TcpStream}
    (hstream : s.tokenStreamMap token = some stream) (read : ReadResult Bytes) :
    Handled serde s token stream read ((handleData serde env token read).run s.enter) := by
  cases read with
  | data data =>
      rw [handleData_data serde hstream]
      have hreturns := handleRequest_outcome serde env token data s.enter
      refine ⟨?_, ?_, hreturns.trans ⟨fun h _ hdata => by cases hdata; exact h, fun h => h _ rfl⟩⟩
      · rcases handleRequest_state serde env token data s.enter with
          hsame | ⟨key, value, stream', -, -, -, hwrites⟩
        · exact Or.inl (congrArg P2PHost.server hsame)
        · exact Or.inl (congrArg P2PHost.server hwrites)
      · rcases handleRequest_state serde env token data s.enter with
          hsame | ⟨key, value, stream', hparse, hvalue, hstream', hwrites⟩
        · exact Or.inl (congrArg P2PHost.written hsame)
        · obtain rfl : stream = stream' := Option.some.inj (hstream.symm.trans hstream')
          exact Or.inr ⟨data, key, value, rfl, hparse, hvalue, congrArg P2PHost.written hwrites⟩
  | eof =>
      have hrun : (handleData serde env token .eof).run s.enter = (.ok (), enter { s with
          tokenStreamMap := Function.update s.tokenStreamMap token none }) := by
        unfold handleData
        rw [Exec.bind_ok (Exec.get_run _), show (s.enter : P2PHost Bytes).server.tokenStreamMap token
          = some stream from hstream]
        rfl
      rw [hrun]
      exact ⟨Or.inr rfl, Or.inl rfl, iff_of_true (Outcome.returns_ok ()) (by simp)⟩
  | failed e =>
      unfold handleData
      rw [Exec.bind_ok (Exec.get_run _), show (s.enter : P2PHost Bytes).server.tokenStreamMap token
        = some stream from hstream]
      dsimp only
      cases e.kind with
      | connectionReset =>
          exact ⟨Or.inr rfl, Or.inl rfl, iff_of_true (Outcome.returns_err _) (by simp)⟩
      | wouldBlock => exact ⟨Or.inl rfl, Or.inl rfl, iff_of_true (Outcome.returns_ok ()) (by simp)⟩
      | connectionRefused | timedOut | other =>
          exact ⟨Or.inl rfl, Or.inl rfl, iff_of_true (Outcome.returns_err _) (by simp)⟩

/-! ## Runs -/

theorem Tracks.stored (h : Tracks s log) (c : DataStore.Call) :
    Tracks { s with dataStore := (c.method.run s.dataStore).2 }
      (log ++ [.stored c (c.method.run s.dataStore).1]) := by
  have hconnections : connections (log ++ [.stored c (c.method.run s.dataStore).1])
      = connections log := by simp [connections]
  refine ⟨fun k => ?_, ?_, ?_⟩
  · rw [latest_concat, ← h.store k]
    exact method_stores c s.dataStore k
  · rw [hconnections]
    exact h.counter
  · rw [hconnections]
    exact h.streams

/-- A new peer gets a token of its own. -/
theorem Tracks.connected (h : Tracks s log) (env : Env) (stream : TcpStream) :
    Tracks ((handleConnection env stream : Method Bytes Unit).run s.enter).2.server
      (log ++ [.connected stream]) := by
  have hstore : ∀ k, latest k (log ++ [(.connected stream : Event Bytes)]) = latest k log :=
    fun k => latest_concat k log _
  have hconnections : connections (log ++ [(.connected stream : Event Bytes)])
      = connections log ++ [stream] := by simp [connections]
  have hold : ∀ token stream', s.tokenStreamMap token = some stream' →
      1 ≤ token ∧ (connections log ++ [stream])[token - 1]? = some stream' := by
    intro token stream' hstream
    obtain ⟨hlow, hmade⟩ := h.streams token stream' hstream
    refine ⟨hlow, ?_⟩
    obtain ⟨hlt, -⟩ := List.getElem?_eq_some_iff.1 hmade
    rw [List.getElem?_append_left hlt, hmade]
  rw [handleConnection_run]
  cases env.register with
  | some e =>
      refine ⟨fun k => (h.store k).trans (hstore k).symm, ?_, ?_⟩
      · rw [hconnections, List.length_append]
        exact congrArg (· + 1) h.counter
      · rw [hconnections]
        exact hold
  | none =>
      refine ⟨fun k => (h.store k).trans (hstore k).symm, ?_, fun token stream' hstream => ?_⟩
      · rw [hconnections, List.length_append]
        exact congrArg (· + 1) h.counter
      · rw [hconnections]
        dsimp only [enter] at hstream
        by_cases htoken : token = s.tokenCounter + 1
        · rw [htoken, Function.update_self] at hstream
          cases hstream
          rw [htoken, h.counter]
          exact ⟨Nat.le_add_left _ _, by simp⟩
        · rw [Function.update_of_ne htoken] at hstream
          exact hold token stream' hstream

theorem Tracks.read (h : Tracks s log) {s' : P2PServer} {token : Token}
    (hs' : s' = s ∨ s' = { s with tokenStreamMap := Function.update s.tokenStreamMap token none })
    (read : ReadResult Bytes) (written : List (TcpStream × Bytes)) :
    Tracks s' (log ++ [.read token read written]) := by
  have hconnections : connections (log ++ [(.read token read written : Event Bytes)])
      = connections log := by simp [connections]
  have hstore : ∀ k, latest k (log ++ [(.read token read written : Event Bytes)]) = latest k log :=
    fun k => latest_concat k log _
  refine ⟨fun k => ?_, ?_, fun token' stream hstream => ?_⟩
  · rw [hstore]
    rcases hs' with rfl | rfl <;> exact h.store k
  · rw [hconnections]
    rcases hs' with rfl | rfl <;> exact h.counter
  · rw [hconnections]
    rcases hs' with rfl | rfl
    · exact h.streams token' stream hstream
    · dsimp only at hstream
      by_cases htoken : token' = token
      · rw [htoken, Function.update_self] at hstream
        cases hstream
      · rw [Function.update_of_ne htoken] at hstream
        exact h.streams token' stream hstream

@[simp] theorem withStore_server (b : Bind) (d : DataStore) :
    (b.withStore d).server = { b.server with dataStore := d } := by
  cases b <;> rfl

@[simp] theorem resumeConnection_server (self : P2PServer) (o : Outcome P2PServerError Unit) :
    (resumeConnection self o).server = self := by
  cases o <;> rfl

@[simp] theorem resumeData_server (self : P2PServer) (o : Outcome P2PServerError Unit) :
    (resumeData self o).server = self := by
  cases o <;> rfl

theorem resumeData_serving (self : P2PServer) (o : Outcome P2PServerError Unit) :
    (∃ s, resumeData self o = .serving s) ↔ o.Returns := by
  cases o with
  | ok a => exact iff_of_true ⟨_, rfl⟩ (Outcome.returns_ok a)
  | err e => exact iff_of_true ⟨_, rfl⟩ (Outcome.returns_err e)
  | panic m => exact iff_of_false (by rintro ⟨s, ⟨⟩⟩) (Outcome.not_returns_panic m)
  | exit n => exact iff_of_false (by rintro ⟨s, ⟨⟩⟩) (Outcome.not_returns_exit n)

/-- **One step** keeps the log true, and what it writes is an answer. -/
theorem step_tracks {b : Bind} (h : Tracks b.server log) (i : Input Bytes) :
    Tracks (step serde b i).1.server (log ++ (step serde b i).2) ∧
      EachAfter (fun pre e => Answers serde (log ++ pre) e) (step serde b i).2 := by
  have hidle : Tracks b.server (log ++ []) ∧
      EachAfter (fun pre e => Answers serde (log ++ pre) e) [] := by
    rw [List.append_nil]
    exact ⟨h, .nil⟩
  cases i with
  | store c =>
      dsimp only [step]
      rw [withStore_server]
      exact ⟨h.stored c, .cons trivial .nil⟩
  | pollFailed e => cases b <;> exact hidle
  | acceptFailed e =>
      cases b with
      | serving self =>
          dsimp only [step]
          split <;> exact hidle
      | returned | gone => exact hidle
  | connection env stream =>
      cases b with
      | serving self =>
          dsimp only [step]
          rw [resumeConnection_server]
          exact ⟨h.connected env stream, .cons trivial .nil⟩
      | returned | gone => exact hidle
  | readable env token read =>
      cases b with
      | serving self =>
          dsimp only [step]
          split
          · rename_i hsome
            obtain ⟨stream, hstream⟩ := Option.isSome_iff_exists.1 hsome
            have hhandled := handleData_handled serde env hstream read
            rw [resumeData_server]
            refine ⟨h.read hhandled.server read _, .cons ?_ .nil⟩
            rw [List.append_nil]
            rcases hhandled.written with hnone | ⟨data, key, value, rfl, hparse, hvalue, hwritten⟩
            · exact Or.inl hnone
            · obtain ⟨hlow, hmade⟩ := h.streams token stream hstream
              exact Or.inr ⟨data, key, value, stream, rfl, hparse, (h.store key).symm.trans hvalue,
                hlow, hmade, hwritten⟩
          · exact hidle
      | returned | gone => exact hidle

/-- **Peers get what is stored last**: in every run, whatever is written answers the request just
read, on the connection it has come from, with what the client has stored last under the key. -/
theorem answers_latest (peerAddr : SocketAddr) (inputs : List (Input Bytes)) :
    EachAfter (Answers serde) ((bind serde peerAddr).run inputs).2 := by
  refine (IOMachine.run_induction (M := bind serde peerAddr)
    (fun b log => Tracks b.server log ∧ EachAfter (Answers serde) log)
    ⟨⟨fun k => rfl, rfl, ?_⟩, .nil⟩ (fun b log i h => ?_) inputs).2
  · rintro token stream ⟨⟩
  · obtain ⟨htracks, hanswers⟩ := step_tracks serde h.1 i
    exact ⟨htracks, h.2.append hanswers⟩

/-- A step that does not end the loop. -/
def Harmless (b : Bind) : Input Bytes → Prop
  | .pollFailed _ => False
  | .acceptFailed e => e.kind = .wouldBlock
  | .connection env _ => env.register = none
  | .readable _ token read => (b.server.tokenStreamMap token).isSome →
      ∀ data, read = .data data → RegistryServer.Legible serde data
  | .store _ => True

/-- **What ends the loop**: a peer that cannot be registered, bytes that are no text, or a failure
of the poll or the listener. Whatever else the peers do, `bind` serves on. -/
theorem serving_iff (peerAddr : SocketAddr) (inputs : List (Input Bytes)) :
    (∃ s, ((bind serde peerAddr).run inputs).1 = .serving s) ↔
      (bind serde peerAddr).Along (Harmless serde) (bind serde peerAddr).start inputs := by
  refine IOMachine.exec_iff_along (M := bind serde peerAddr) (I := fun _ => True)
    (P := fun b => ∃ s, b = .serving s) (fun _ _ _ => trivial) ?_ ?_ trivial ⟨_, rfl⟩ inputs
  · rintro b i - ⟨s, rfl⟩
    cases i with
    | store c => exact iff_of_true ⟨_, rfl⟩ trivial
    | pollFailed e => exact iff_of_false (by rintro ⟨s', ⟨⟩⟩) id
    | acceptFailed e =>
        dsimp only [bind, step, Harmless]
        split
        · rename_i hkind
          exact iff_of_true ⟨s, rfl⟩ hkind
        · rename_i hkind
          exact iff_of_false (by rintro ⟨s', ⟨⟩⟩) hkind
    | connection env stream =>
        show (∃ s', resumeConnection _ _ = .serving s') ↔ env.register = none
        rw [handleConnection_run]
        cases env.register with
        | none => exact iff_of_true ⟨_, rfl⟩ rfl
        | some e => exact iff_of_false (by rintro ⟨s', ⟨⟩⟩) (by simp)
    | readable env token read =>
        dsimp only [bind, step, Harmless, Bind.server]
        split
        · rename_i hsome
          obtain ⟨stream, hstream⟩ := Option.isSome_iff_exists.1 hsome
          have hreturns := (handleData_handled serde env hstream read).returns
          exact (resumeData_serving _ _).trans
            (hreturns.trans ⟨fun h _ => h, fun h => h hsome⟩)
        · rename_i hnone
          exact iff_of_true ⟨s, rfl⟩ fun hsome => absurd hsome hnone
  · rintro b i hlost ⟨s, hs⟩
    cases b with
    | serving self => exact hlost ⟨self, rfl⟩
    | returned self e | gone self => cases i <;> cases hs

end P2PServer

end Soros
