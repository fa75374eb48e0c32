import Soros.ProtocolClient.Termination
import Soros.RegistryServer.Formats
import Soros.Session.Bytes
import Soros.Session.Turns

set_option autoImplicit false

/-! # Sessions on bytes are sessions on messages

However the bytes to the clients are cut into pieces, the clients and the registry do what they do
in a session in which messages arrive whole, as long as each `read` of the registry brings the
whole of what a client has sent (`bytes_refine`). So everything that is proved about `Session`
holds of the bytes on the sockets. -/

namespace Soros

open ProtocolClient (receive extract)
open RegistryServer (Served)
open Session (said Event)

/-! ## One read of `receive_message` -/

namespace ProtocolClient

theorem receive_one (serde : Serde Bytes) (currData bytes : Bytes) :
    receive serde ⟨[.data bytes], currData⟩ = if newline ∈ bytes then
      some (extract serde ⟨.ok (), ⟨[], currData ++ bytes⟩, [currData]⟩) else none := by
  rw [receive, fill]
  simp only [readInto, List.take_left]
  by_cases hline : newline ∈ bytes
  · rw [if_pos ((newline_mem_buffer bytes).2 hline), if_pos hline]
    rfl
  · rw [if_neg fun hyes => hline ((newline_mem_buffer bytes).1 hyes), if_neg hline]
    rfl

/-- A line that is the text of a message is taken for this message. -/
theorem extract_line {serde : Serde Bytes} (hserde : serde.Compact) (message : Message)
    (tail : Bytes) (reads : List (ReadResult Bytes)) (buffered : List Bytes) :
    extract serde ⟨.ok (), ⟨reads, message.json ++ newline :: tail⟩, buffered⟩
      = ⟨.ok message, ⟨reads, tail⟩, buffered⟩ := by
  have hdecode : decode serde message.json = .ok message := by
    rw [decode, if_pos (hserde.isUtf8_json message), hserde.fromSlice_json message]
  have hdrop : (message.json ++ newline :: tail).drop (message.json.length + 1) = tail := by
    rw [← List.drop_drop, List.drop_left, List.drop_one, List.tail_cons]
  rw [extract]
  dsimp only
  rw [Lines.idxOf?_line (newline_notMem_json message)]
  dsimp only
  rw [List.take_left, hdecode, hdrop]

end ProtocolClient

/-! ## Clients -/

/-- The bytes of messages. -/
def frames (messages : List Message) : Bytes := (messages.map Message.frame).flatten

theorem frames_append (messages messages' : List Message) :
    frames (messages ++ messages') = frames messages ++ frames messages' := by
  simp [frames]

theorem frames_cons (message : Message) (messages : List Message) :
    frames (message :: messages) = message.json ++ newline :: frames messages := by
  simp [frames, Message.frame]

namespace ByteClient

/-- **What is on the sockets** are the bytes of the messages. A client has no line left over. -/
structure Carries (w : ByteClient) (c : Client) : Prop where
  self : w.self = c.self
  running : w.running = c.running
  inside : w.inside = c.inside
  incoming : w.currData ++ w.incoming = frames c.inbox
  line : newline ∉ w.currData
  outgoing : w.outgoing = frames c.outbox

end ByteClient

namespace ByteSession

open ByteClient (Carries)

/-- What a client has done of an operation, as the client with messages sees it. -/
inductive Matches (c : Client) (op : SocketOp) : Performed op → Prop where
  | blocked : Matches c op .blocked
  | going (w' : ByteClient) (h : w'.Carries c) : Matches c op (.going w')
  | answered (answer : op.Result) (w' : ByteClient) (c' : Client)
      (hperform : Session.perform c op = some (answer, c')) (h : w'.Carries c') :
      Matches c op (.answered answer w')

variable {w : ByteClient} {c : Client}

/-- Something is left to read exactly if a message is. -/
theorem incoming_eq_nil (h : w.Carries c) : w.incoming = [] ↔ c.inbox = [] := by
  have hincoming := h.incoming
  constructor
  · intro hnone
    rw [hnone, List.append_nil] at hincoming
    cases hinbox : c.inbox with
    | nil => rfl
    | cons message inbox =>
        rw [hinbox, frames_cons] at hincoming
        exact absurd (hincoming ▸ List.mem_append_right _ List.mem_cons_self) h.line
  · intro hnone
    rw [hnone] at hincoming
    exact (List.append_eq_nil_iff.1 hincoming).2

/-- Less than a response is no line. -/
theorem no_line {responses : List RegistryResponse} {tail rest : Bytes}
    (h : tail ++ rest = frames (responses.map said)) (hlength : tail.length < 32) :
    newline ∉ tail := by
  cases responses with
  | nil =>
      obtain ⟨rfl, -⟩ := List.append_eq_nil_iff.1 h
      exact List.not_mem_nil
  | cons response responses =>
      rw [frames, List.map_map] at h
      exact ProtocolClient.no_frame response responses h hlength

/-- **A turn of the loop** of `receive_message`: the client takes the next message when its last
byte has come, and what is left is no line, for a response is longer than the buffer. -/
theorem matches_receive (h : w.Carries c)
    (hinbox : ∃ responses : List RegistryResponse, c.inbox = responses.map said) (size : Nat) :
    Matches c .receive (perform w size .receive) := by
  obtain ⟨responses, hresponses⟩ := hinbox
  dsimp only [perform]
  obtain ⟨bytes, hbytes⟩ : ∃ bytes, bytes = w.incoming.take (min size 32) := ⟨_, rfl⟩
  have hcut : w.incoming = bytes ++ w.incoming.drop (min size 32) := by
    rw [hbytes, List.take_append_drop]
  have hshort : bytes.length ≤ 32 := by
    rw [hbytes, List.length_take]
    omega
  rw [← hbytes]
  generalize w.incoming.drop (min size 32) = rest at hcut ⊢
  by_cases hnone : bytes = []
  · rw [if_pos hnone]
    exact .blocked
  rw [if_neg hnone, ProtocolClient.receive_one]
  have hincoming := h.incoming
  rw [hcut, ← List.append_assoc] at hincoming
  by_cases hline : newline ∈ bytes
  · rw [if_pos hline]
    cases responses with
    | nil =>
        rw [hresponses] at hincoming
        have hno := (List.append_eq_nil_iff.1 (List.append_eq_nil_iff.1 hincoming).1).2
        exact absurd hno hnone
    | cons response responses =>
        rw [List.map_cons] at hresponses
        rw [hresponses, frames_cons] at hincoming
        obtain ⟨tail, hcurr, htail⟩ := Lines.complete (newline_notMem_json _) hincoming
          (List.mem_append_right w.currData hline)
        rw [hcurr, ProtocolClient.extract_line Serde.json_compact]
        refine .answered _ _ { c with inbox := responses.map said } ?_
          ⟨h.self, h.running, h.inside, htail, ?_, h.outgoing⟩
        · simp only [Session.perform]
          rw [hresponses]
        · have hlength := Lines.length_le hcurr h.line
          have htotal := congrArg List.length hcurr
          simp only [List.length_append, List.length_cons] at htotal
          have hshort' : tail.length < 32 := by omega
          exact no_line htail hshort'
  · rw [if_neg hline]
    refine .going _ ⟨h.self, h.running, h.inside, hincoming, ?_, h.outgoing⟩
    exact fun hno => (List.mem_append.1 hno).elim h.line hline

theorem matches_perform (h : w.Carries c)
    (hinbox : ∃ responses : List RegistryResponse, c.inbox = responses.map said) (size : Nat)
    (op : SocketOp) : Matches c op (perform w size op) := by
  cases op with
  | receive => exact matches_receive h hinbox size
  | call call =>
      cases call with
      | writeAll message =>
          refine .answered _ _ _ rfl ⟨h.self, h.running, h.inside, h.incoming, h.line, ?_⟩
          rw [frames_append, ← h.outgoing]
          simp [frames, Serde.json_singleValue.toVec_eq]
      | peek =>
          dsimp only [perform]
          by_cases hnone : w.incoming = []
          · rw [if_pos hnone]
            exact .blocked
          · rw [if_neg hnone]
            refine .answered _ _ c ?_ h
            simp only [Session.perform]
            rw [if_neg fun hno => hnone ((incoming_eq_nil h).2 hno)]
      | connectPrimary | connectSecondary | setReadTimeout | setWriteTimeout =>
          exact .answered _ _ c rfl h

/-- The next system call of a client does not block. -/
def ready (c : ByteClient) : Bool :=
  match c.running with
  | some (_, _, .call op _) => !(perform c 32 op).isBlocked
  | _ => false

/-- **No message is waited for that has come**: a client with bytes blocks exactly when a client
with messages does. -/
theorem isBlocked_perform (h : w.Carries c) (op : SocketOp) :
    (perform w 32 op).isBlocked = (Session.perform c op).isNone := by
  cases op with
  | receive =>
      dsimp only [perform, Session.perform]
      cases hinbox : c.inbox with
      | nil =>
          rw [(incoming_eq_nil h).2 hinbox]
          rfl
      | cons message inbox =>
          have hsome : w.incoming.take (min 32 32) ≠ [] := by
            rw [Ne, List.take_eq_nil_iff, incoming_eq_nil h, hinbox]
            simp
          rw [if_neg hsome]
          split
          · rfl
          · split <;> rfl
  | call call =>
      cases call with
      | peek =>
          dsimp only [perform, Session.perform]
          by_cases hinbox : c.inbox = []
          · rw [if_pos hinbox, if_pos ((incoming_eq_nil h).2 hinbox)]
            rfl
          · rw [if_neg hinbox, if_neg fun hno => hinbox ((incoming_eq_nil h).1 hno)]
            rfl
      | writeAll | connectPrimary | connectSecondary | setReadTimeout | setWriteTimeout => rfl

theorem ready_carries (h : w.Carries c) : ready w = Session.ready c := by
  unfold ready Session.ready
  rw [h.running]
  cases c.running with
  | none => rfl
  | some call =>
      obtain ⟨t, k, rest⟩ := call
      cases rest with
      | done => rfl
      | call op rest =>
          dsimp only
          rw [isBlocked_perform h, Option.not_isNone]

theorem resume_carries (h : w.Carries c) (p : ProcId) (t : RequestType) (k : KeyId)
    (rest : ProtocolClient.Method (Option SocketAddr)) :
    (resume p w t k rest).1.Carries (Session.resume p c t k rest).1 ∧
      (resume p w t k rest).2 = (Session.resume p c t k rest).2 := by
  cases rest with
  | done r =>
      refine ⟨⟨h.self, rfl, ?_, h.incoming, h.line, h.outgoing⟩, rfl⟩
      dsimp only [resume, Session.resume]
      rw [h.inside]
  | call op cont => exact ⟨⟨h.self, rfl, h.inside, h.incoming, h.line, h.outgoing⟩, rfl⟩

/-- **A client with bytes** takes the step that a client with messages takes, or has it still
before it. -/
theorem proceed_carries (h : w.Carries c)
    (hinbox : ∃ responses : List RegistryResponse, c.inbox = responses.map said) (p : ProcId)
    (size : Nat) : ∃ w', (proceed p w size).1 = some w' ∧
      (w'.Carries c ∧ (proceed p w size).2 = [] ∨
        w'.Carries (Session.proceed p c).1 ∧ (proceed p w size).2 = (Session.proceed p c).2) := by
  unfold proceed
  rw [h.running]
  split
  · rename_i t k op rest hrunning
    have hmatches := matches_perform h hinbox size op
    generalize perform w size op = r at hmatches
    cases hmatches with
    | blocked => exact ⟨w, rfl, Or.inl ⟨h, rfl⟩⟩
    | going w' h' => exact ⟨w', rfl, Or.inl ⟨h', rfl⟩⟩
    | answered answer w' c' hperform h' =>
        obtain ⟨hnext, hsame⟩ := resume_carries h' p t k (rest answer)
        have hproceed : Session.proceed p c = Session.resume p c' t k (rest answer) := by
          simp only [Session.proceed, hrunning, hperform]
        rw [hproceed]
        exact ⟨_, rfl, Or.inr ⟨hnext, hsame⟩⟩
  · exact ⟨w, rfl, Or.inl ⟨h, rfl⟩⟩

/-! ## Sessions -/

/-- **The sockets carry the messages** of the session. -/
structure Carries (w : ByteSession) (s : Session) : Prop where
  registry : w.registry = s.registry
  clients : ∀ p, Option.Rel ByteClient.Carries (w.clients p) (s.clients p)

theorem Carries.setClient {w : ByteSession} {s : Session} (h : w.Carries s) (p : ProcId)
    {o : Option ByteClient} {o' : Option Client} (ho : Option.Rel ByteClient.Carries o o') :
    (w.setClient p o).Carries (s.setClient p o') := by
  refine ⟨h.registry, fun q => ?_⟩
  dsimp only [ByteSession.setClient, Session.setClient]
  by_cases hq : q = p
  · rw [hq, Function.update_self, Function.update_self]
    exact ho
  · rw [Function.update_of_ne hq, Function.update_of_ne hq]
    exact h.clients q

/-- What the registry has written, as bytes. -/
def encode (written : List (TcpStream × Message)) : List (TcpStream × Bytes) :=
  written.map fun w => (w.1, Serde.json.toVec w.2)

theorem sentTo_encode (p : ProcId) (written : List (TcpStream × Message)) :
    sentTo p (encode written) = frames (Session.sentTo p written) := by
  induction written with
  | nil => rfl
  | cons m written ih =>
      unfold sentTo encode Session.sentTo frames at ih ⊢
      rw [List.map_cons, List.filterMap_cons, List.filterMap_cons]
      by_cases hp : m.1 = p
      · simp only [hp, if_true, List.flatten_cons, List.map_cons]
        rw [ih, Serde.json_singleValue.toVec_eq]
      · simp only [hp, if_false]
        exact ih

/-- The registry does the same in both. -/
theorem Carries.react {w : ByteSession} {s : Session} (h : w.Carries s)
    (i : RegistryServer.Input Message) :
    (w.react (RegistryServer.Input.encode Serde.json i)).1.Carries (s.react i).1 ∧
      (w.react (RegistryServer.Input.encode Serde.json i)).2 = encode (s.react i).2 := by
  have hstep := RegistryServer.step_encode Serde.json s.registry i
  obtain ⟨i', hi'⟩ : ∃ i', i' = RegistryServer.Input.encode Serde.json i := ⟨_, rfl⟩
  rw [← hi'] at hstep ⊢
  have hwritten : (w.react i').2 = encode (s.react i).2 := by
    dsimp only [ByteSession.react, Session.react]
    rw [h.registry, hstep]
    dsimp only
    rw [encode, List.map_flatMap, List.flatMap_map]
    rfl
  refine ⟨⟨?_, fun p => ?_⟩, hwritten⟩
  · dsimp only [ByteSession.react, Session.react]
    rw [h.registry, hstep]
  · show Option.Rel _
      ((w.clients p).map fun c => { c with incoming := c.incoming ++ sentTo p (w.react i').2 })
      ((s.clients p).map fun c => { c with inbox := c.inbox ++ Session.sentTo p (s.react i).2 })
    rw [hwritten, sentTo_encode]
    have hp := h.clients p
    generalize w.clients p = o, s.clients p = o' at hp
    cases hp with
    | none => exact .none
    | some hc =>
        refine .some ⟨hc.self, hc.running, hc.inside, ?_, hc.line, hc.outgoing⟩
        dsimp only
        rw [frames_append, ← hc.incoming, List.append_assoc]

/-- The clients' side of a session. -/
def seen : Event → Option Event
  | .called p t k => some (.called p t k)
  | .returned p t k r => some (.returned p t k r)
  | .asked _ _ | .sent _ _ => none

/-- Each `read` of the registry brings the whole of what the client has sent. -/
def Whole (w : ByteSession) : Input → Prop
  | .serve p _ size => ∀ c ∈ w.clients p, c.outgoing.length ≤ min size 256
  | _ => True

instance (w : ByteSession) (i : Input) : Decidable (w.Whole i) := by
  unfold Whole; split <;> infer_instance

/-- What is on the way to a client are responses. -/
theorem inbox_said {s : Session} (h : s.Invariant) {p : ProcId} {c : Client}
    (hc : s.clients p = some c) :
    ∃ responses : List RegistryResponse, c.inbox = responses.map said := by
  have hpending : ∀ {m : RwLock.Mode} {k : KeyId} {inbox : List Message},
      Session.Pending (Session.waits s.registry p) (Session.holds s.registry p) m k inbox →
      ∃ responses : List RegistryResponse, inbox = responses.map said := by
    intro m k inbox hpending
    cases hpending with
    | queued => exact ⟨[], rfl⟩
    | granted response => exact ⟨[response], rfl⟩
  have hphase := (h.clients p c hc).phase
  generalize c.running = running, c.inbox = inbox, c.outbox = outbox at hphase
  cases hphase with
  | idle | starting | requested => exact ⟨[], rfl⟩
  | answered t k response => exact ⟨[response], rfl⟩
  | waited m k rest inbox hrest hwaits =>
      obtain ⟨responses, rfl⟩ := hpending hwaits
      exact ⟨.wait k :: responses, rfl⟩
  | waiting m k inbox hwaits => exact hpending hwaits

theorem Carries.ready {w : ByteSession} {s : Session} (h : w.Carries s) (p : ProcId) :
    (w.clients p).map ready = (s.clients p).map Session.ready := by
  have hp := h.clients p
  generalize w.clients p = o, s.clients p = o' at hp
  cases hp with
  | none => rfl
  | some hcarries => exact congrArg some (ready_carries hcarries)

/-- A step on bytes is a step on messages, or none. -/
def Simulates (s : Session) (r : ByteSession × List Event) : Prop :=
  r.1.Carries s ∧ r.2 = [] ∨
    ∃ j, r.1.Carries (s.step j).1 ∧ (s.step j).2.filterMap seen = r.2

theorem greet_carries {reads : List Bytes} {messages : List Message}
    (hcut : Cut reads (frames messages)) (hlength : messages.length ≤ 1) :
    Option.Rel ByteClient.Carries (greet reads) (Session.greet messages) := by
  obtain ⟨hbytes, hreads⟩ := hcut
  cases messages with
  | nil =>
      have hnone : reads = [] := by
        cases reads with
        | nil => rfl
        | cons r reads =>
            have hno := (List.append_eq_nil_iff.1 (List.flatten_cons ▸ hbytes)).1
            exact absurd hno (hreads r List.mem_cons_self).1
      rw [hnone]
      exact .none
  | cons message messages =>
      obtain rfl := List.length_eq_zero_iff.1 (Nat.le_zero.1 (Nat.le_of_succ_le_succ hlength))
      have hstream : [] ++ reads.flatten = message.frame ++ [] := by
        rw [hbytes, List.nil_append, List.append_nil]
        exact List.flatten_singleton
      obtain ⟨tail, reads', buffered, hreceive, htail, -⟩ :=
        ProtocolClient.receive_frame Serde.json_compact (fun r hr => (hreads r hr).2)
          List.not_mem_nil hstream
      obtain ⟨rfl, -⟩ := List.append_eq_nil_iff.1 htail
      unfold greet Session.greet
      rw [hreceive]
      dsimp only
      cases ProtocolClient.new.runWith (Session.greeted message) with
      | ok self => exact .some ⟨rfl, rfl, rfl, rfl, List.not_mem_nil, rfl⟩
      | error e => exact .none

theorem greeting_length (r : RegistryServer) (addr : SocketAddr) (p : ProcId) :
    (Session.sentTo p ((RegistryServer.step Serde.direct r
      (.connection (Env.calm .ascending) r.nextToken addr)).2.flatMap Served.written)).length ≤ 1 := by
  have hstep := Session.step_connection r .ascending r.nextToken addr
  dsimp only at hstep
  split at hstep
  · rw [hstep.2]
    exact Nat.zero_le 1
  · rw [hstep.2]
    exact List.length_filterMap_le _ _

section

variable {w : ByteSession} {s : Session} (h : w.Carries s)

include h

theorem Carries.connect (addr : SocketAddr) (reads : List Bytes) :
    Simulates s (w.step (.connect addr reads)) := by
  dsimp only [ByteSession.step]
  rw [h.registry]
  obtain ⟨hnext, hwritten⟩ := h.react (.connection (Env.calm .ascending) s.registry.nextToken addr)
  dsimp only [RegistryServer.Input.encode] at hnext hwritten
  rw [hwritten, sentTo_encode]
  split
  · rename_i hcut
    refine Or.inr ⟨.connect addr, hnext.setClient s.registry.nextToken
      (greet_carries hcut (greeting_length s.registry addr _)), ?_⟩
    dsimp only [Session.step]
    rw [List.filterMap_map]
    exact List.filterMap_eq_nil_iff.2 fun _ _ => rfl
  · exact Or.inl ⟨h, rfl⟩

theorem Carries.client {p : ProcId} {c : ByteClient} (hc : w.clients p = some c) :
    ∃ c', s.clients p = some c' ∧ c.Carries c' := by
  have hp := h.clients p
  rw [hc] at hp
  generalize s.clients p = o at hp
  cases hp with
  | some hcarries => exact ⟨_, rfl, hcarries⟩

theorem Carries.call (p : ProcId) (t : RequestType) (k : KeyId) :
    Simulates s (w.step (.call p t k)) := by
  dsimp only [ByteSession.step]
  split
  · rename_i c hw
    obtain ⟨c', hc', hcarries⟩ := h.client hw
    split
    · rename_i hidle
      rw [hcarries.running] at hidle
      refine Or.inr ⟨.call p t k, ?_⟩
      dsimp only [Session.step]
      rw [hc']
      dsimp only
      rw [if_pos hidle]
      refine ⟨h.setClient p (.some ⟨hcarries.self, ?_, ?_, hcarries.incoming, hcarries.line,
        hcarries.outgoing⟩), rfl⟩
      · dsimp only [begin, Session.begin]
        rw [hcarries.self]
      · dsimp only [begin, Session.begin]
        rw [hcarries.inside]
    · exact Or.inl ⟨h, rfl⟩
  · exact Or.inl ⟨h, rfl⟩

variable (hs : s.Invariant)

include hs

theorem Carries.proceed (p : ProcId) (size : Nat) : Simulates s (w.step (.proceed p size)) := by
  dsimp only [ByteSession.step]
  split
  · rename_i c hw
    obtain ⟨c', hc', hcarries⟩ := h.client hw
    obtain ⟨w', hw', hnext⟩ := proceed_carries hcarries (inbox_said hs hc') p size
    rw [hw']
    rcases hnext with ⟨hsame, hnone⟩ | ⟨hnext, hevents⟩
    -- the read has not brought the end of the line
    · have hstays := h.setClient p (.some hsame)
      rw [Session.setClient, Function.update_eq_self_iff.2 hc'.symm] at hstays
      exact Or.inl ⟨hstays, hnone⟩
    · refine Or.inr ⟨.proceed p, ?_⟩
      dsimp only [Session.step]
      rw [hc']
      refine ⟨h.setClient p (.some hnext), ?_⟩
      rw [hevents]
      rcases (hs.clients p c' hc').proceed.2 with hnone | ⟨t, k, response, -, hreturned⟩
      · rw [hnone]
        rfl
      · rw [hreturned]
        rfl
  · exact Or.inl ⟨h, rfl⟩

theorem Carries.serve (p : ProcId) (iter : SetIter ProcId) (size : Nat)
    (hwhole : w.Whole (.serve p iter size)) : Simulates s (w.step (.serve p iter size)) := by
  dsimp only [ByteSession.step]
  split
  · rename_i c hw
    obtain ⟨c', hc', hcarries⟩ := h.client hw
    have hall : c.outgoing.length ≤ min size 256 := hwhole c hw
    rw [List.take_of_length_le hall, List.drop_eq_nil_of_le hall, h.registry]
    split
    · exact Or.inl ⟨h, rfl⟩
    · rename_i hreads
      obtain ⟨hsome, hbackup⟩ := not_or.1 hreads
      have houtgoing := hcarries.outgoing
      cases houtbox : c'.outbox with
      | nil =>
          rw [houtbox] at houtgoing
          exact absurd houtgoing hsome
      | cons message outbox =>
          -- the client has one request on the way
          obtain ⟨t, k, -, -, -, rfl, rfl, -⟩ := hs.reads hc' houtbox hbackup iter
          have hbytes : c.outgoing = Serde.json.toVec (.registry (.request p t k)) := by
            rw [houtgoing, houtbox, Serde.json_singleValue.toVec_eq]
            exact List.flatten_singleton
          have hread : ByteClient.Carries { c with outgoing := [] } { c' with outbox := [] } :=
            ⟨hcarries.self, hcarries.running, hcarries.inside, hcarries.incoming, hcarries.line, rfl⟩
          have hserved := (h.setClient p (.some hread)).react
            (.readable (Env.calm iter) p (.data (.registry (.request p t k))))
          refine Or.inr ⟨.serve p iter, ?_⟩
          simp only [Session.step, hc', houtbox, if_neg hbackup]
          rw [hbytes]
          refine ⟨hserved.1, ?_⟩
          rw [List.filterMap_cons, List.filterMap_map]
          exact List.filterMap_eq_nil_iff.2 fun _ _ => rfl
  · exact Or.inl ⟨h, rfl⟩

end

/-- A session on bytes carries a session on messages with the same calls and returns. -/
theorem run_carries (secondaryServer : Option (SocketAddr × TcpStream)) (inputs : List Input)
    (hwhole : (machine secondaryServer).Along Whole (machine secondaryServer).start inputs) :
    ∃ inputs', ((machine secondaryServer).run inputs).1.Carries
        ((Session.machine secondaryServer).run inputs').1 ∧
      ((Session.machine secondaryServer).run inputs').2.filterMap seen
        = ((machine secondaryServer).run inputs).2 := by
  have hstep : ∀ (w : ByteSession) (s : Session) (i : Input), w.Whole i →
      w.Carries s ∧ s.Invariant → ∃ is',
        ((w.step i).1.Carries ((Session.machine secondaryServer).exec s is').1 ∧
          ((Session.machine secondaryServer).exec s is').1.Invariant) ∧
        ((Session.machine secondaryServer).exec s is').2.filterMap seen = (w.step i).2 := by
    rintro w s i hw ⟨h, hs⟩
    have hsimulates : Simulates s (w.step i) := by
      cases i with
      | connect addr reads => exact h.connect addr reads
      | call p t k => exact h.call p t k
      | proceed p size => exact h.proceed hs p size
      | serve p iter size => exact h.serve hs p iter size hw
    rcases hsimulates with ⟨hstays, hnone⟩ | ⟨j, hnext, hevents⟩
    · exact ⟨[], ⟨hstays, hs⟩, hnone.symm⟩
    · refine ⟨[j], ⟨hnext, hs.step j⟩, ?_⟩
      rw [← hevents]
      exact congrArg _ (List.append_nil _)
  obtain ⟨inputs', ⟨hcarries, -⟩, hsame⟩ := IOMachine.exec_refines (M := machine secondaryServer)
    (N := Session.machine secondaryServer) seen hstep
    ⟨⟨rfl, fun p => .none⟩, Session.run_invariant secondaryServer []⟩ inputs hwhole
  exact ⟨inputs', hcarries, hsame⟩

/-- **Bytes refine messages.** However the bytes to the clients are cut into pieces, a session on
bytes in which the registry reads requests whole is a session on messages: its clients make the
same calls, which return the same, are inside the same keys and block at the same points, and the
registry is in the same state. -/
theorem bytes_refine (secondaryServer : Option (SocketAddr × TcpStream)) (inputs : List Input)
    (hwhole : (machine secondaryServer).Along Whole (machine secondaryServer).start inputs) :
    ∃ inputs', ((machine secondaryServer).run inputs).1.Carries
        ((Session.machine secondaryServer).run inputs').1 ∧
      (∀ p, (((machine secondaryServer).run inputs).1.clients p).map ready
        = (((Session.machine secondaryServer).run inputs').1.clients p).map Session.ready) ∧
      ((Session.machine secondaryServer).run inputs').2.filterMap seen
        = ((machine secondaryServer).run inputs).2 := by
  obtain ⟨inputs', hcarries, hsame⟩ := run_carries secondaryServer inputs hwhole
  exact ⟨inputs', hcarries, hcarries.ready, hsame⟩

/-- A client creates a key; the greeting and the response come to it in pieces. -/
def pieces : List Input :=
  let greeting := (Message.registry (.connection 1)).frame
  [.connect ⟨"127.0.0.1", 4000⟩ [], .connect ⟨"127.0.0.1", 4001⟩ [greeting.take 7, greeting.drop 7],
    .call 1 .create 0, .proceed 1 0, .serve 1 .ascending 256, .proceed 1 0,
    .proceed 1 20, .proceed 1 32]

theorem bytes_refine_pieces :
    ∃ inputs', ((machine none).run pieces).1.Carries ((Session.machine none).run inputs').1 ∧
      (∀ p, (((machine none).run pieces).1.clients p).map ready
        = (((Session.machine none).run inputs').1.clients p).map Session.ready) ∧
      ((Session.machine none).run inputs').2.filterMap seen = ((machine none).run pieces).2 :=
  bytes_refine none pieces (by decide +kernel)

end ByteSession

end Soros
