import Soros.Lib.Machine
import Soros.ProtocolClient.Invocation
import Soros.ProtocolClient.Termination

set_option autoImplicit false

/-! # The stream of a client and what is left of it

The methods of a client once more, now read by read: a byte in the buffer carries the connection
that it was read from, which the client does not know. `switch_to_secondary` replaces the stream
and nothing else. What is left of the primary server's messages stays in the buffer, in front of
the greeting of the secondary server, and the client goes on taking the secondary server for the
primary one (`described_iff`). -/

namespace Soros

inductive Server where
  | primary
  | secondary
  deriving DecidableEq, Repr

/-- A connection: the server at its other end, and a number of its own. -/
structure Connection where
  server : Server
  number : Nat
  deriving DecidableEq, Repr

/-- `registry_stream`, once there is one, and `curr_data`. -/
structure Link where
  stream : Option Connection
  currData : List (UInt8 × Connection)
  /-- How many connections there have been. -/
  opened : Nat
  deriving DecidableEq, Repr

namespace Link

/-- The stream is replaced if the connection succeeds. -/
def connect (link : Link) (server : Server) : Option IoError → Link
  | none => { link with stream := some ⟨server, link.opened⟩, opened := link.opened + 1 }
  | some _ => link

/-- What a system call makes of the link. -/
def after (link : Link) : SocketCall → Option IoError → Link
  | .connectPrimary, answer => link.connect .primary answer
  | .connectSecondary, answer => link.connect .secondary answer
  | .setReadTimeout, _ | .setWriteTimeout, _ | .writeAll _, _ | .peek, _ => link

end Link

namespace ProtocolClient

variable (serde : Serde Bytes)

/-- One turn of the loop of `receive_message`, on the connection `c`: the new buffer, and what the
call returns if it ends here. -/
def readOnce (c : Connection) (currData : List (UInt8 × Connection)) (read : ReadResult Bytes) :
    Option (Outcome ProtocolClientError Message) × List (UInt8 × Connection) :=
  match readInto read with
  | .error e => (some (.err (.ioError e)), currData)
  | .ok bytes =>
      let currData := currData ++ bytes.map fun b => (b, c)
      if newline ∈ bytes then
        match (currData.map Prod.fst).idxOf? newline with
        | none => (some (.err .unexpectedResponse), currData)
        | some index =>
            (some (decode serde ((currData.take index).map Prod.fst)), currData.drop (index + 1))
      else (none, currData)

/-- **The turns make up the call**: `receive_message` goes through them one by one. -/
theorem receive_readOnce (c : Connection) (currData : List (UInt8 × Connection))
    (read : ReadResult Bytes) (reads : List (ReadResult Bytes)) :
    receive serde ⟨read :: reads, currData.map Prod.fst⟩
      = match readOnce serde c currData read with
        | (some o, left) => some ⟨o, ⟨reads, left.map Prod.fst⟩, [currData.map Prod.fst]⟩
        | (none, left) => (receive serde ⟨reads, left.map Prod.fst⟩).map fun r =>
            { r with buffered := currData.map Prod.fst :: r.buffered } := by
  unfold receive readOnce
  dsimp only
  rw [fill]
  cases readInto read with
  | error e => rfl
  | ok bytes =>
      have hvalues : (currData ++ bytes.map fun b => (b, c)).map Prod.fst
          = currData.map Prod.fst ++ bytes := by
        rw [List.map_append, List.map_map]
        exact congrArg _ (List.map_id bytes)
      dsimp only
      -- what is behind the bytes read are zeros, and no newline
      rw [List.take_left]
      by_cases hline : newline ∈ bytes
      · rw [if_pos ((newline_mem_buffer bytes).2 hline), if_pos hline, hvalues, Option.map_some,
          extract]
        dsimp only
        cases (currData.map Prod.fst ++ bytes).idxOf? newline with
        | none => exact congrArg (fun d => some (Received.mk _ ⟨reads, d⟩ _)) hvalues.symm
        | some index =>
            dsimp only
            rw [List.map_take, List.map_drop, hvalues]
      · rw [if_neg fun hyes => hline ((newline_mem_buffer bytes).1 hyes), if_neg hline]
        dsimp only
        rw [hvalues]
        cases fill (currData.map Prod.fst ++ bytes) reads with
        | none => rfl
        | some f =>
            rw [Option.map_some, Option.map_some, Option.map_some, Option.map_some]
            congr 1
            unfold extract
            cases f.result with
            | error e => rfl
            | ok _ =>
                dsimp only
                cases f.left.currData.idxOf? newline <;> rfl

/-! ## A client at work -/

/-- What a client is doing: `new`, nothing, or a call. It is gone when `new` has failed or
something has panicked. -/
inductive Phase where
  | starting (rest : Method ProtocolClient)
  | idle (self : ProtocolClient)
  | calling (self : ProtocolClient) (rest : Method Invocation.Returned)
  | gone

/-- The client, once `new` has returned it. -/
def Phase.self? : Phase → Option ProtocolClient
  | .idle self | .calling self _ => some self
  | .starting _ | .gone => none

/-- `new` has returned, or it goes on. -/
def Phase.start : Method ProtocolClient → Phase
  | .done (.ok self) => .idle self
  | .done (.error _) => .gone
  | rest => .starting rest

/-- The call has returned, or it goes on. -/
def Phase.call (self : ProtocolClient) : Method Invocation.Returned → Phase
  | .done _ => .idle self
  | rest => .calling self rest

structure Client where
  phase : Phase
  link : Link

/-- What can happen to a client: its user calls a method, a system call ends, or a `read` does. -/
inductive Event where
  | invoke (invocation : Invocation)
  | answer (result : Option IoError)
  | read (read : ReadResult Bytes)

/-- A method goes on; there is nothing left of it after a panic. -/
def advance {α : Type} (link : Link) : Method α → Event → Option (Method α) × Link
  | .call (.call c) cont, .answer result => (some (cont result), link.after c result)
  | .call .receive cont, .read read =>
      match link.stream with
      | none => (some (.call .receive cont), link)
      | some stream =>
          match readOnce serde stream link.currData read with
          | (none, left) => (some (.call .receive cont), { link with currData := left })
          | (some (.ok message), left) => (some (cont (.ok message)), { link with currData := left })
          | (some (.err e), left) => (some (cont (.error e)), { link with currData := left })
          | (some _, left) => (none, { link with currData := left })
  | rest, _ => (some rest, link)

def Client.step (c : Client) (event : Event) : Client :=
  match c.phase, event with
  | .idle self, .invoke invocation => ⟨Phase.call self (invocation.method self), c.link⟩
  | .starting rest, event =>
      let r := advance serde c.link rest event
      ⟨(r.1.map Phase.start).getD .gone, r.2⟩
  | .calling self rest, event =>
      let r := advance serde c.link rest event
      ⟨(r.1.map (Phase.call self)).getD .gone, r.2⟩
  | _, _ => c

/-- A client as a machine, which shows its states. -/
def client : IOMachine Client Event Client where
  start := ⟨.starting new, ⟨none, [], 0⟩⟩
  step c event := (c.step serde event, [c.step serde event])

/-- The state of the client describes its stream: the buffer holds what has been read from it, and
`is_primary` says whose it is. -/
structure Describes (client : ProtocolClient) (link : Link) : Prop where
  own : ∀ b ∈ link.currData, link.stream = some b.2
  primary : client.isPrimary = true ↔ link.stream.map Connection.server = some .primary

/-- In every state that the client reaches its state describes its stream. -/
def AlwaysDescribed (events : List Event) : Prop :=
  ∀ c ∈ ((client serde).run events).2, ∀ self, c.phase.self? = some self → self.Describes c.link

/-- In the midst of a call the client asks for a connection to the secondary server, and gets it. -/
def Client.Switches (c : Client) (event : Event) : Prop :=
  ∃ self cont, c.phase = .calling self (.call (.call .connectSecondary) cont) ∧
    event = .answer none

/-! ## What can happen -/

/-- What `advance` makes of a method. -/
inductive Advances {α : Type} (link : Link) : Method α → Event → Option (Method α) × Link → Prop
  | ignored (rest : Method α) (event : Event) : Advances link rest event (some rest, link)
  | answered (c : SocketCall) (cont : Option IoError → Method α) (result : Option IoError) :
      Advances link (.call (.call c) cont) (.answer result) (some (cont result), link.after c result)
  /-- A `read`, after which the loop goes on, the call returns, or the client panics. -/
  | read (cont : Except ProtocolClientError Message → Method α) (read : ReadResult Bytes)
      (stream : Connection) (hstream : link.stream = some stream) (o : Option (Method α))
      (ho : o = none ∨ o = some (.call .receive cont) ∨ ∃ answer, o = some (cont answer)) :
      Advances link (.call .receive cont) (.read read)
        (o, { link with currData := (readOnce serde stream link.currData read).2 })

theorem advance_advances {α : Type} (link : Link) (rest : Method α) (event : Event) :
    Advances serde link rest event (advance serde link rest event) := by
  unfold advance
  split
  · exact .answered ..
  · rename_i cont read
    split
    · exact .ignored ..
    · rename_i stream hstream
      have hleft : ∀ o, (o = none ∨ o = some (.call .receive cont) ∨ ∃ answer, o = some (cont answer)) →
          Advances serde link (.call .receive cont) (.read read)
            (o, { link with currData := (readOnce serde stream link.currData read).2 }) :=
        fun o ho => .read cont read stream hstream o ho
      generalize readOnce serde stream link.currData read = r at hleft ⊢
      obtain ⟨o, left⟩ := r
      cases o with
      | none => exact hleft _ (Or.inr (Or.inl rfl))
      | some o =>
          cases o with
          | ok message => exact hleft _ (Or.inr (Or.inr ⟨.ok message, rfl⟩))
          | err e => exact hleft _ (Or.inr (Or.inr ⟨.error e, rfl⟩))
          | panic | exit => exact hleft _ (Or.inl rfl)
  · exact .ignored ..

/-- What is left in the buffer was there, or it has been read just now. -/
theorem readOnce_own {c : Connection} {currData : List (UInt8 × Connection)}
    (h : ∀ b ∈ currData, b.2 = c) (read : ReadResult Bytes) :
    ∀ b ∈ (readOnce serde c currData read).2, b.2 = c := by
  unfold readOnce
  cases readInto read with
  | error e => exact h
  | ok bytes =>
      have hall : ∀ b ∈ currData ++ bytes.map fun b => (b, c), b.2 = c := by
        intro b hb
        rcases List.mem_append.1 hb with hb | hb
        · exact h b hb
        · obtain ⟨b', -, rfl⟩ := List.mem_map.1 hb
          rfl
      dsimp only
      split
      · split
        · exact hall
        · exact fun b hb => hall b (List.mem_of_mem_drop hb)
      · exact hall

/-! ## What the methods connect to -/

/-- Accounts for `new` by the server that it is connected to, and whether it has read. It
connects before it reads. -/
def opening : Prog.Monitor SocketOp SocketOp.Result (Option Server × Bool) where
  allows s op := op = .call .connectPrimary ∨ op = .call .connectSecondary → s.2 = false
  next s op answer :=
    match op, answer with
    | .call .connectPrimary, none => (some .primary, s.2)
    | .call .connectSecondary, none => (some .secondary, s.2)
    | .receive, _ => (s.1, true)
    | _, _ => s

/-- A client that `new` returns knows which server it is connected to. -/
def Opened (s : Option Server × Bool) (r : Except ProtocolClientError ProtocolClient) : Prop :=
  ∀ self, r = .ok self → (self.isPrimary = true ↔ s.1 = some .primary)

/-- The end of `new`, on the stream of the server `server`. -/
theorem greeted_opening (isPrimary : Bool) {server : Server}
    (hserver : isPrimary = true ↔ some server = some .primary) (read : Bool) :
    (do
      io .setReadTimeout
      io .setWriteTimeout
      let procId ← registryHandleConnection
      pure { isPrimary, procId } : Method ProtocolClient).Obeys opening Opened (some server, read) := by
  have herror : ∀ (e : ProtocolClientError) s, Opened s (.error e) := by
    rintro e s self ⟨⟩
  refine .bind (.bind ⟨by simp [opening], fun answer => ?_⟩)
  cases answer with
  | some e => exact herror _ _
  | none =>
      refine .bind (.bind ⟨by simp [opening], fun answer => ?_⟩)
      cases answer with
      | some e => exact herror _ _
      | none =>
          refine .bind (.bind ⟨by simp [opening], fun answer => ?_⟩)
          cases answer with
          | error e => exact herror _ _
          | ok message =>
              -- only the greeting lets `new` return a client
              cases message with
              | data => exact herror _ _
              | registry message =>
                  cases message with
                  | connection procId =>
                      rintro self ⟨⟩
                      exact hserver
                  | connectionEstablished | request | response | stopRequest => exact herror _ _

theorem new_opening : new.Obeys opening Opened (none, false) := by
  refine .bind ⟨by simp [opening], fun answer => ?_⟩
  cases answer with
  | none => exact greeted_opening true (by simp) false
  | some e =>
      obtain ⟨kind, text⟩ := e
      cases kind with
      | connectionRefused | connectionReset | timedOut =>
          refine .bind (.bind ⟨by simp [opening], fun answer => ?_⟩)
          cases answer with
          | none => exact greeted_opening false (by simp) false
          | some e' => rintro self ⟨⟩
      | wouldBlock | other => rintro self ⟨⟩

/-- A method that is called connects to the secondary server only, and only as long as the client
takes its server for the primary one. -/
def Allowed (self : ProtocolClient) : SocketOp → Prop
  | .call .connectPrimary => False
  | .call .connectSecondary => self.isPrimary = true
  | .call _ | .receive => True

section

variable (self : ProtocolClient)

theorem io_uses {c : SocketCall} (hc : self.Allowed (.call c)) : (io c).Uses self.Allowed := by
  refine .bind (.perform hc) fun answer => ?_
  cases answer <;> trivial

theorem registryHandleResponse_uses : registryHandleResponse.Uses self.Allowed := by
  refine .bind (.attempt ⟨trivial, fun _ => trivial⟩) fun received => ?_
  cases received with
  | error e => trivial
  | ok message =>
      cases message with
      | data => trivial
      | registry message =>
          cases message with
          | response response => cases response <;> trivial
          | connection | connectionEstablished | request | stopRequest => trivial

theorem registryAwaitRead_uses : registryAwaitRead.Uses self.Allowed := by
  refine .bind (registryHandleResponse_uses self) fun response => ?_
  cases response <;> trivial

theorem registryAwaitWrite_uses : registryAwaitWrite.Uses self.Allowed := by
  refine .bind (registryHandleResponse_uses self) fun response => ?_
  cases response <;> trivial

theorem registryExpectSuccess_uses (k : KeyId) : (registryExpectSuccess k).Uses self.Allowed := by
  refine .bind (registryHandleResponse_uses self) fun response => ?_
  cases response with
  | success k' =>
      dsimp only
      split <;> trivial
  | holder | wait | error | ack => trivial

theorem registryHandleConnection_uses : registryHandleConnection.Uses self.Allowed := by
  refine .bind ⟨trivial, fun _ => trivial⟩ fun message => ?_
  cases message with
  | data => trivial
  | registry message => cases message <;> trivial

/-- The one way to the secondary server. -/
theorem resend_uses (message : Message) : (resend self message).Uses self.Allowed := by
  unfold resend
  cases hprimary : self.isPrimary with
  | false => trivial
  | true =>
      refine .bind ?_ fun _ => io_uses self trivial
      refine .bind (io_uses self hprimary) fun _ => ?_
      refine .bind (.attempt (registryHandleConnection_uses self)) fun _ => ?_
      exact .bind (io_uses self trivial) fun _ => io_uses self trivial

theorem registrySendRequest_uses (k : KeyId) (t : RequestType) :
    (self.registrySendRequest k t).Uses self.Allowed := by
  refine .bind (.perform trivial) fun answer => ?_
  cases answer with
  | some e => exact resend_uses self _
  | none =>
      refine .bind (.perform trivial) fun answer => ?_
      cases answer with
      | some e => exact resend_uses self _
      | none => trivial

theorem awaitReadSync_uses : awaitReadSync.Uses self.Allowed := by
  refine .bind (.attempt (registryAwaitRead_uses self)) fun received => ?_
  cases received with
  | ok res => trivial
  | error e =>
      cases e with
      | waitError k =>
          refine .bind (.bind (registryAwaitRead_uses self) fun res => ?_) fun _ => trivial
          split <;> trivial
      | ioError | serializationError | registryError | unexpectedResponse | noBackupServer => trivial

theorem awaitWriteSync_uses : awaitWriteSync.Uses self.Allowed := by
  refine .bind (.attempt (registryAwaitWrite_uses self)) fun received => ?_
  cases received with
  | ok res => trivial
  | error e =>
      cases e with
      | waitError k =>
          refine .bind (.bind (registryAwaitWrite_uses self) fun res => ?_) fun _ => trivial
          split <;> trivial
      | ioError | serializationError | registryError | unexpectedResponse | noBackupServer => trivial

/-- **Every method** connects to the secondary server at most. -/
theorem method_uses (invocation : Invocation) : (invocation.method self).Uses self.Allowed := by
  have hsend := registrySendRequest_uses self
  cases invocation with
  | create k =>
      exact .bind (.bind (hsend k _) fun _ => registryExpectSuccess_uses self k) fun _ => trivial
  | delete k =>
      exact .bind (.bind (hsend k _) fun _ => registryExpectSuccess_uses self k) fun _ => trivial
  | release k =>
      exact .bind (.bind (hsend k _) fun _ => registryExpectSuccess_uses self k) fun _ => trivial
  | read k => exact .bind (hsend k _) fun _ => trivial
  | write k => exact .bind (hsend k _) fun _ => trivial
  | readSync k => exact .bind (.bind (hsend k _) fun _ => awaitReadSync_uses self) fun _ => trivial
  | writeSync k => exact .bind (.bind (hsend k _) fun _ => awaitWriteSync_uses self) fun _ => trivial
  | awaitRead => exact .bind (registryAwaitRead_uses self) fun _ => trivial
  | awaitWrite => exact .bind (registryAwaitWrite_uses self) fun _ => trivial
  | stop => exact .bind (io_uses self trivial) fun _ => trivial

end

/-! ## Runs -/

/-- What holds of a client between two events, as long as it has not switched. -/
def Phase.Fits (link : Link) : Phase → Prop
  | .starting rest => ∃ read, rest.Obeys opening Opened (link.stream.map Connection.server, read) ∧
      (read = false → link.currData = []) ∧ ∀ b ∈ link.currData, link.stream = some b.2
  | .idle self => self.Describes link
  | .calling self rest => self.Describes link ∧ rest.Uses self.Allowed
  | .gone => True

theorem start_fits {link : Link} {rest : Method ProtocolClient} {read : Bool}
    (hrest : rest.Obeys opening Opened (link.stream.map Connection.server, read))
    (hread : read = false → link.currData = [])
    (hown : ∀ b ∈ link.currData, link.stream = some b.2) : (Phase.start rest).Fits link := by
  cases rest with
  | call op cont => exact ⟨read, hrest, hread, hown⟩
  | done r =>
      cases r with
      | ok self => exact ⟨hown, hrest self rfl⟩
      | error e => trivial

theorem call_fits {link : Link} {self : ProtocolClient} {rest : Method Invocation.Returned}
    (hdescribes : self.Describes link) (hrest : rest.Uses self.Allowed) :
    (Phase.call self rest).Fits link := by
  cases rest with
  | done r => exact hdescribes
  | call op cont => exact ⟨hdescribes, hrest⟩

/-- Reading adds bytes of the stream to the buffer, whatever becomes of it. -/
theorem read_own {link : Link} {stream : Connection} (hstream : link.stream = some stream)
    (hown : ∀ b ∈ link.currData, link.stream = some b.2) (read : ReadResult Bytes) :
    ∀ b ∈ (readOnce serde stream link.currData read).2, link.stream = some b.2 := by
  intro b hb
  rw [hstream, readOnce_own serde (fun b' hb' => ?_) read b hb]
  exact (Option.some.inj (hstream.symm.trans (hown b' hb'))).symm

/-- A step of `new`. -/
theorem starting_fits {link : Link} {rest : Method ProtocolClient}
    (h : (Phase.starting rest).Fits link) (event : Event) :
    (((advance serde link rest event).1.map Phase.start).getD .gone).Fits
      (advance serde link rest event).2 := by
  obtain ⟨read, hrest, hread, hown⟩ := h
  have hadvances := advance_advances serde link rest event
  generalize advance serde link rest event = r at hadvances ⊢
  cases hadvances with
  | ignored => exact start_fits hrest hread hown
  | answered c cont result =>
      have hcont := hrest.2 result
      cases c with
      -- `new` connects before it reads, so the buffer is still empty
      | connectPrimary =>
          have hempty := hread (hrest.1 (Or.inl rfl))
          cases result with
          | some e => exact start_fits hcont hread hown
          | none => exact start_fits hcont hread (by simp [Link.after, Link.connect, hempty])
      | connectSecondary =>
          have hempty := hread (hrest.1 (Or.inr rfl))
          cases result with
          | some e => exact start_fits hcont hread hown
          | none => exact start_fits hcont hread (by simp [Link.after, Link.connect, hempty])
      | setReadTimeout | setWriteTimeout | writeAll | peek => exact start_fits hcont hread hown
  | read cont read' stream hstream o ho =>
      have hown' := read_own serde hstream hown read'
      have htrue : (Prog.call SocketOp.receive cont : Method ProtocolClient).Obeys opening Opened
          (link.stream.map Connection.server, true) := ⟨fun hno => by simp at hno, hrest.2⟩
      generalize (readOnce serde stream link.currData read').2 = left at hown' ⊢
      rcases ho with rfl | rfl | ⟨answer, rfl⟩
      · trivial
      · exact (start_fits htrue (by simp) hown' : (Phase.start _).Fits { link with currData := left })
      · exact (start_fits (hrest.2 answer) (by simp) hown' :
          (Phase.start _).Fits { link with currData := left })

/-- A step of a call, in which the client does not switch. -/
theorem calling_fits {link : Link} {self : ProtocolClient} {rest : Method Invocation.Returned}
    (h : (Phase.calling self rest).Fits link) {event : Event}
    (hstays : ¬ Client.Switches ⟨.calling self rest, link⟩ event) :
    (((advance serde link rest event).1.map (Phase.call self)).getD .gone).Fits
      (advance serde link rest event).2 := by
  obtain ⟨hdescribes, hrest⟩ := h
  have hadvances := advance_advances serde link rest event
  generalize advance serde link rest event = r at hadvances ⊢
  cases hadvances with
  | ignored => exact call_fits hdescribes hrest
  | answered c cont result =>
      have hcont := hrest.2 result
      cases c with
      -- no method of a client connects to the primary server
      | connectPrimary => exact absurd hrest.1 id
      | connectSecondary =>
          cases result with
          | some e => exact call_fits hdescribes hcont
          | none => exact absurd ⟨self, cont, rfl, rfl⟩ hstays
      | setReadTimeout | setWriteTimeout | writeAll | peek => exact call_fits hdescribes hcont
  | read cont read stream hstream o ho =>
      have hsame : self.Describes
          { link with currData := (readOnce serde stream link.currData read).2 } :=
        ⟨read_own serde hstream hdescribes.own read, hdescribes.primary⟩
      rcases ho with rfl | rfl | ⟨answer, rfl⟩
      · trivial
      · exact call_fits hsame hrest
      · exact call_fits hsame (hrest.2 answer)

theorem step_fits {c : Client} (h : c.phase.Fits c.link) {event : Event} (hstays : ¬ c.Switches event) :
    (c.step serde event).phase.Fits (c.step serde event).link := by
  obtain ⟨phase, link⟩ := c
  cases phase with
  | starting rest => exact starting_fits serde h event
  | calling self rest => exact calling_fits serde h hstays
  | gone => cases event <;> trivial
  | idle self =>
      cases event with
      | invoke invocation => exact call_fits h (method_uses self invocation)
      | answer | read => exact h

theorem Phase.Fits.describes {phase : Phase} {link : Link} (h : phase.Fits link)
    {self : ProtocolClient} (hself : phase.self? = some self) : self.Describes link := by
  cases phase with
  | starting | gone => cases hself
  | idle self' =>
      cases hself
      exact h
  | calling self' rest =>
      cases hself
      exact h.1

/-- After a switch the client is wrong about its server. -/
theorem switches_wrong {c : Client} (h : c.phase.Fits c.link) {event : Event}
    (hswitches : c.Switches event) :
    ∃ self, (c.step serde event).phase.self? = some self ∧
      ¬ self.Describes (c.step serde event).link := by
  obtain ⟨phase, link⟩ := c
  obtain ⟨self, cont, hphase, rfl⟩ := hswitches
  dsimp only at hphase
  subst hphase
  refine ⟨self, ?_, fun hdescribes => ?_⟩
  · show (Phase.call self (cont none)).self? = some self
    cases cont none <;> rfl
  -- it asks for the secondary server because it takes its server for the primary one
  · have hprimary : self.isPrimary = true := h.2.1
    have hserver := hdescribes.primary.1 hprimary
    cases hserver

theorem exec_described_iff {c : Client} (h : c.phase.Fits c.link) (events : List Event) :
    (∀ c' ∈ ((client serde).exec c events).2, ∀ self, c'.phase.self? = some self →
        self.Describes c'.link) ↔
      (client serde).Along (fun c event => ¬ c.Switches event) c events := by
  induction events generalizing c with
  | nil => simp [IOMachine.Along]
  | cons event events ih =>
      rw [IOMachine.exec_cons, List.forall_mem_append]
      by_cases hswitches : c.Switches event
      -- the state after the switch is among those shown
      · obtain ⟨self, hself, hwrong⟩ := switches_wrong serde h hswitches
        refine iff_of_false (fun hall => ?_) (fun hall => hall.1 hswitches)
        exact hwrong (hall.1 _ (List.mem_singleton.2 rfl) self hself)
      · have hnext := step_fits serde h hswitches
        refine (and_congr ⟨fun _ => hswitches, fun _ => ?_⟩ (ih hnext))
        intro c' hc' self hself
        obtain rfl := List.mem_singleton.1 hc'
        exact hnext.describes hself

/-- **The state of a client describes its stream** as long as the client does not switch, and no
longer. -/
theorem described_iff (events : List Event) :
    AlwaysDescribed serde events ↔
      (client serde).Along (fun c event => ¬ c.Switches event) (client serde).start events :=
  exec_described_iff serde (c := ⟨.starting new, ⟨none, [], 0⟩⟩)
    ⟨false, new_opening, fun _ => rfl, by simp⟩ events

/-- The primary server greets the client and dies in the middle of its next message, which the
client notices when it writes its first request. -/
def switchEvents : List Event :=
  [.answer none, .answer none, .answer none,
    .read (.data ((Message.registry (.connection 1)).frame ++ ascii "\x7b\"")),
    .invoke (.create 7), .answer (some ⟨.connectionReset, "reset by peer"⟩)]

/-- The beginning of the message is still there after the switch. -/
theorem afterSwitch :
    ((client Serde.json).run (switchEvents ++ [.answer none])).1.phase.self? = some ⟨true, 1⟩ ∧
    ((client Serde.json).run (switchEvents ++ [.answer none])).1.link
      = ⟨some ⟨.secondary, 1⟩, [(123, ⟨.primary, 0⟩), (34, ⟨.primary, 0⟩)], 2⟩ := by
  decide +kernel

theorem switch_undescribed : ¬ AlwaysDescribed Serde.json (switchEvents ++ [.answer none]) := by
  intro h
  obtain ⟨hself, hlink⟩ := afterSwitch
  have hlast : ((client Serde.json).run (switchEvents ++ [.answer none])).1
      ∈ ((client Serde.json).run (switchEvents ++ [.answer none])).2 := by
    rw [IOMachine.run_concat]
    exact List.mem_append_right _ (List.mem_singleton.2 rfl)
  have hprimary := (h _ hlast _ hself).primary.1 rfl
  rw [hlink] at hprimary
  cases hprimary

end ProtocolClient

end Soros
