import Soros.RegistryServer.Bind
import Soros.Wire.Decode

set_option autoImplicit false

/-! # How the server cuts the stream into messages

`handle_data` keeps no buffer: what one `read` returns is parsed as one message, newline and
all. A message gets through if some read ends where it ends, and nothing else does
(`reads_passed_iff`); two messages that arrive together are refused as one that is malformed
(`passed_two`). `messages_passed_iff` says so of a run of `bind`, where the loop has to be there
for each of the reads as well. -/

namespace Soros

namespace RegistryServer

/-! ## Which reads get through -/

/-- A newline or nothing: all that a read may have besides the text of a message. -/
def Margin (bytes : Bytes) : Prop := bytes = [] ∨ bytes = [newline]

theorem Margin.blank {bytes : Bytes} (h : Margin bytes) : Blank bytes := by
  rcases h with rfl | rfl
  · simp [Blank]
  · simp [Blank, newline]

/-- A read that brings one message and nothing of another. -/
def Brings (read : Bytes) (message : Message) : Prop :=
  ∃ before after, Margin before ∧ Margin after ∧ read = before ++ message.json ++ after

/-- The stream goes on with another message or ends. -/
theorem rest_not_blank {messages : List Message} {a b : Bytes} (ha : Blank a)
    (h : (messages.map Message.frame).flatten = a ++ b) : a = [] := by
  cases messages with
  | nil => exact (List.append_eq_nil_iff.1 h.symm).1
  | cons m messages =>
      obtain ⟨inner, hjson⟩ := json_braces m
      cases a with
      | nil => rfl
      | cons b' a =>
          simp only [List.map_cons, List.flatten_cons, Message.frame, hjson, List.cons_append]
            at h
          obtain ⟨rfl, -⟩ := List.cons.inj h
          exact absurd (ha _ List.mem_cons_self) (by decide)

/-- **A read that is accepted** at the beginning of a message brings this message. -/
theorem brings_of_accepted {serde : Serde Bytes} (hserde : serde.SingleValue)
    {before read coming : Bytes} (hbefore : Margin before) {m m' : Message}
    {messages : List Message}
    (hstream : read ++ coming = before ++ (m.frame ++ (messages.map Message.frame).flatten))
    (haccepted : serde.fromSlice read = .ok m') :
    ∃ after, Margin after ∧ read = before ++ m.json ++ after := by
  have halone : serde.fromSlice (before ++ m.json) = .ok m := by
    have hblank := hserde.fromSlice_blank m before [] hbefore.blank (by simp [Blank])
    rwa [List.append_nil] at hblank
  rw [Message.frame, List.append_assoc, ← List.append_assoc before] at hstream
  rcases List.append_eq_append_iff.1 hstream with ⟨x, hx, -⟩ | ⟨x, hx, hrest⟩
  · -- the read ends before the message does, so it ends where the message ends
    rw [hx] at halone
    have hblank := hserde.fromSlice_more _ _ _ _ haccepted halone
    obtain ⟨inner, hjson⟩ := json_braces m
    have hnil : x = [] := by
      rcases List.eq_nil_or_concat x with rfl | ⟨x', b, rfl⟩
      · rfl
      · rw [hjson, ← List.append_assoc, List.concat_eq_append, ← List.append_assoc] at hx
        obtain ⟨-, hb⟩ := List.append_inj' hx rfl
        obtain rfl : 125 = b := by simpa using hb
        exact absurd (hblank 125 (by simp)) (by decide)
    rw [hnil, List.append_nil] at hx
    exact ⟨[], Or.inl rfl, by rw [← hx, List.append_nil]⟩
  · -- what follows the message in the read is whitespace, so it is the newline at most
    rw [hx] at haccepted
    have hblank := hserde.fromSlice_more _ _ _ _ halone haccepted
    refine ⟨x, ?_, hx⟩
    cases x with
    | nil => exact Or.inl rfl
    | cons b x =>
        rw [List.singleton_append, List.cons_append] at hrest
        obtain ⟨rfl, htail⟩ := List.cons.inj hrest
        have hnil := rest_not_blank (fun b hb => hblank b (List.mem_cons_of_mem _ hb)) htail
        exact Or.inr (by rw [hnil])

/-- The reads of a stream of which a newline may have been left over. -/
theorem brings_of_passed {serde : Serde Bytes} (hserde : serde.SingleValue)
    (messages : List Message) {reads : List Bytes} {before : Bytes} (hbefore : Margin before)
    (hstream : reads.flatten = before ++ (messages.map Message.frame).flatten)
    (hpassed : reads.map (passed serde) = messages.map some) :
    List.Forall₂ Brings reads messages := by
  induction messages generalizing reads before with
  | nil =>
      obtain rfl := List.map_eq_nil_iff.1 hpassed
      exact .nil
  | cons m messages ih =>
      cases reads with
      | nil => cases hpassed
      | cons read reads =>
          obtain ⟨hread, hreads⟩ := List.cons.inj hpassed
          rw [List.flatten_cons, List.map_cons, List.flatten_cons] at hstream
          obtain ⟨after, hafter, rfl⟩ :=
            brings_of_accepted hserde hbefore hstream ((passed_eq_some serde).1 hread)
          refine .cons ⟨before, after, hbefore, hafter, rfl⟩ ?_
          rw [Message.frame, List.append_assoc, List.append_assoc, List.append_assoc,
            List.append_cancel_left_eq, List.append_cancel_left_eq] at hstream
          rcases hafter with rfl | rfl
          · exact ih (Or.inr rfl) hstream hreads
          · exact ih (Or.inl rfl) (List.append_cancel_left hstream) hreads

/-- The messages of a stream get through, one by one and in order, exactly if each read brings one
of them. -/
theorem reads_passed_iff {serde : Serde Bytes} (hserde : serde.SingleValue)
    (messages : List Message) (reads : List Bytes)
    (hstream : reads.flatten = (messages.map serde.toVec).flatten) :
    reads.map (passed serde) = messages.map some ↔ List.Forall₂ Brings reads messages := by
  refine ⟨fun h => ?_, fun h => ?_⟩
  · refine brings_of_passed hserde messages (Or.inl rfl) ?_ h
    rw [hstream, List.nil_append]
    exact congrArg List.flatten (List.map_congr_left fun m _ => hserde.toVec_eq m)
  · clear hstream
    induction h with
    | nil => rfl
    | cons hbrings _ ih =>
        obtain ⟨before, after, hbefore, hafter, rfl⟩ := hbrings
        rw [List.map_cons, List.map_cons, ih, (passed_eq_some serde).2
          (hserde.fromSlice_blank _ before after hbefore.blank hafter.blank)]

/-- Two messages in one read are both lost. -/
theorem passed_two {serde : Serde Bytes} (hserde : serde.SingleValue) (m m' : Message) :
    passed serde (m.frame ++ m'.frame) = none := by
  cases haccepted : passed serde (m.frame ++ m'.frame) with
  | none => rfl
  | some message =>
      have hstream : (m.frame ++ m'.frame) ++ [] =
          [] ++ (m.frame ++ ([m'].map Message.frame).flatten) := by simp
      obtain ⟨after, hafter, hread⟩ := brings_of_accepted hserde (Or.inl rfl) hstream
        ((passed_eq_some serde).1 haccepted)
      have hlength := congrArg List.length hread
      obtain ⟨inner, hjson⟩ := json_braces m'
      have hmargin : after.length ≤ 1 := by rcases hafter with rfl | rfl <;> simp
      simp only [Message.frame, hjson, List.length_append, List.length_cons, List.length_nil]
        at hlength
      omega

/-! ## Runs -/

/-- What the input reads from the connection. -/
def Input.dataFrom (token : Token) : Input Bytes → Option Bytes
  | .readable _ token' (.data data) => if token' = token then some data else none
  | _ => none

/-- The reads in which the stream of the connection arrives. -/
def readsOf (token : Token) (inputs : List (Input Bytes)) : List Bytes :=
  inputs.filterMap (Input.dataFrom token)

/-- An input, and what `handle_message` is given if the loop takes it. -/
structure Handed where
  input : Input Bytes
  messages : List Message

section

variable (serde : Serde Bytes)

def Turn.handed (t : Turn Bytes) : List Message :=
  ((t.input.handle serde).run t.before.enter).2.handed

def hand (b : Bind) (i : Input Bytes) : Bind × List Handed :=
  ((turn serde b i).1, [⟨i, (turn serde b i).2.flatMap (Turn.handed serde)⟩])

/-- `bind`, with an account of what `handle_message` is given. -/
def handing (secondaryServer : Option (SocketAddr × TcpStream)) :
    IOMachine Bind (Input Bytes) Handed where
  start := .serving (new secondaryServer)
  step := hand serde

end

/-- What `handle_message` is given for each of the reads of the connection. -/
def handedFor (token : Token) (log : List Handed) : List (List Message) :=
  log.filterMap fun e => (e.input.dataFrom token).map fun _ => e.messages

theorem handedFor_append (token : Token) (log log' : List Handed) :
    handedFor token (log ++ log') = handedFor token log ++ handedFor token log' :=
  List.filterMap_append

/-- Exactly these messages of the connection are passed to `handle_message`, in order, and no read
of it goes without: it would be answered with a parse error, or not be looked at. -/
structure Faithful (token : Token) (log : List Handed) (messages : List Message) : Prop where
  all : (handedFor token log).flatten = messages
  each : ∀ handed ∈ handedFor token log, handed ≠ []

/-- If the input reads from the connection, then the loop is still there, the connection is known
to it, and it is not taken for that of the secondary server. -/
def Attended (token : Token) (b : Bind) (i : Input Bytes) : Prop :=
  (i.dataFrom token).isSome → ∃ s, b = .serving s ∧ s.tokenStreamMap token ≠ none ∧
    token ≠ s.backupToken

instance (token : Token) (b : Bind) (i : Input Bytes) : Decidable (Attended token b i) :=
  match b with
  | .serving s => decidable_of_iff
      ((i.dataFrom token).isSome → s.tokenStreamMap token ≠ none ∧ token ≠ s.backupToken)
      (by simp [Attended])
  | .returned .. | .gone _ => decidable_of_iff (¬ (i.dataFrom token).isSome) (by simp [Attended])

section

variable (serde : Serde Bytes) {token : Token}

/-- A read that the loop attends to: its message is passed on, if it is one. -/
theorem hand_attended {s : RegistryServer} (env : Env) (hstream : s.tokenStreamMap token ≠ none)
    (hbackup : token ≠ s.backupToken) (data : Bytes) :
    (hand serde (.serving s) (.readable env token (.data data))).2
      = [⟨.readable env token (.data data), (passed serde data).toList⟩] := by
  have hreported : s.Reported (.readable env token (.data data) : Input Bytes) := Or.inl hstream
  have hdata := handleData_data serde env (h := s.enter) hbackup hstream data
  have hhanded : ((serveRequest serde env token data).run s.enter).2.handed
      = (passed serde data).toList := (serveRequest_settled serde env token data s.enter).handed
  simp [hand, turn, hreported, Turn.handed, Input.handle, hdata, hhanded]

/-- From any other read of the connection nothing is passed on. -/
theorem hand_unattended {b : Bind} {env : Env} {data : Bytes}
    (h : ¬ Attended token b (.readable env token (.data data))) :
    (hand serde b (.readable env token (.data data))).2
      = [⟨.readable env token (.data data), []⟩] := by
  cases b with
  | returned | gone => rfl
  | serving s =>
      by_cases hreported : s.Reported (.readable env token (.data data) : Input Bytes)
      · have hbackup : token = s.backupToken := by
          by_contra hne
          refine h fun _ => ⟨s, rfl, ?_, hne⟩
          exact hreported.resolve_right fun hback => hne hback.1
        -- what the secondary server sends is not parsed
        have hrun := handleData_run serde s env token (.data data)
        rw [if_pos hbackup] at hrun
        have hnothing : ((handleData serde env token (.data data)).run s.enter).2.handed = [] := by
          rw [hrun, show (token == s.backupToken) = true by simpa using hbackup]
          cases s.backupStream <;> rfl
        simp [hand, turn, hreported, Turn.handed, Input.handle, hnothing]
      · simp [hand, turn, hreported]

theorem exists_of_dataFrom {i : Input Bytes} {data : Bytes} (h : i.dataFrom token = some data) :
    ∃ env, i = .readable env token (.data data) := by
  cases i with
  | connection => cases h
  | readable env token' read =>
      cases read with
      | eof | failed => cases h
      | data data' =>
          obtain ⟨rfl, rfl⟩ : token' = token ∧ data' = data := by simpa [Input.dataFrom] using h
          exact ⟨env, rfl⟩

/-- A step in the account of the connection. -/
theorem handedFor_hand (token : Token) (b : Bind) (i : Input Bytes) :
    (i.dataFrom token = none → handedFor token (hand serde b i).2 = []) ∧
    (∀ data, i.dataFrom token = some data → Attended token b i →
      handedFor token (hand serde b i).2 = [(passed serde data).toList]) ∧
    (∀ data, i.dataFrom token = some data → ¬ Attended token b i →
      handedFor token (hand serde b i).2 = [[]]) := by
  refine ⟨fun hnone => ?_, fun data hdata hattended => ?_, fun data hdata hno => ?_⟩
  · simp [handedFor, hand, hnone]
  · obtain ⟨s, rfl, hstream, hbackup⟩ := hattended (hdata ▸ rfl)
    obtain ⟨env, rfl⟩ := exists_of_dataFrom hdata
    rw [hand_attended serde env hstream hbackup]
    simp [handedFor, Input.dataFrom]
  · obtain ⟨env, rfl⟩ := exists_of_dataFrom hdata
    rw [hand_unattended serde hno]
    simp [handedFor, Input.dataFrom]

variable (secondaryServer : Option (SocketAddr × TcpStream))

/-- Each read of the connection brings one message, and these are the messages, exactly if the
loop attends to each of them and finds the message in it. -/
theorem exec_handed_iff (b : Bind) (inputs : List (Input Bytes)) (messages : List Message) :
    handedFor token ((handing serde secondaryServer).exec b inputs).2 = messages.map ([·]) ↔
      (handing serde secondaryServer).Along (Attended token) b inputs ∧
        (readsOf token inputs).map (passed serde) = messages.map some := by
  induction inputs generalizing b messages with
  | nil => simp [handedFor, readsOf, IOMachine.Along]
  | cons i inputs ih =>
      obtain ⟨hother, hattended, hno⟩ := handedFor_hand serde token b i
      rw [IOMachine.exec_cons, handedFor_append, readsOf, List.filterMap_cons, ← readsOf,
        IOMachine.Along]
      change handedFor token (hand serde b i).2 ++ _ = _ ↔ _
      cases hdata : i.dataFrom token with
      | none =>
          have htaken : Attended token b i := by simp [Attended, hdata]
          rw [hother hdata, List.nil_append, ih]
          simp [htaken]
      | some data =>
          by_cases htaken : Attended token b i
          · rw [hattended data hdata htaken]
            cases messages with
            | nil => simp
            | cons m messages =>
                have hfirst : (passed serde data).toList = [m] ↔ passed serde data = some m := by
                  cases passed serde data <;> simp
                simp [ih, htaken, hfirst, and_left_comm]
          · rw [hno data hdata htaken]
            cases messages <;> simp [htaken]

end

/-- Lists of one element at most, of which none is empty. -/
theorem singletons_iff {α : Type} {lists : List (List α)} {l : List α}
    (h : ∀ xs ∈ lists, xs.length ≤ 1) :
    lists.flatten = l ∧ (∀ xs ∈ lists, xs ≠ []) ↔ lists = l.map ([·]) := by
  constructor
  · rintro ⟨rfl, hne⟩
    induction lists with
    | nil => rfl
    | cons xs lists ih =>
        obtain ⟨x, rfl⟩ : ∃ x, xs = [x] := by
          have hone := h xs List.mem_cons_self
          have hsome := List.length_pos_iff.2 (hne xs List.mem_cons_self)
          exact List.length_eq_one_iff.1 (by omega)
        have hrest := ih (fun ys hys => h ys (List.mem_cons_of_mem _ hys))
          fun ys hys => hne ys (List.mem_cons_of_mem _ hys)
        rw [List.flatten_cons, List.singleton_append, List.map_cons, ← hrest]
  · rintro rfl
    refine ⟨?_, by simp⟩
    induction l with
    | nil => rfl
    | cons x l ih => rw [List.map_cons, List.flatten_cons, ih (by simp)]; rfl

/-- No read brings more than one message. -/
theorem handedFor_length (serde : Serde Bytes) (secondaryServer : Option (SocketAddr × TcpStream))
    (inputs : List (Input Bytes)) (token : Token) :
    ∀ handed ∈ handedFor token ((handing serde secondaryServer).run inputs).2,
      handed.length ≤ 1 := by
  refine IOMachine.run_induction (M := handing serde secondaryServer)
    (fun _ log => ∀ handed ∈ handedFor token log, handed.length ≤ 1) (by simp [handedFor])
    (fun b log i hlog => ?_) inputs
  have hstep : ∀ handed ∈ handedFor token (hand serde b i).2, handed.length ≤ 1 := by
    obtain ⟨hother, hattended, hno⟩ := handedFor_hand serde token b i
    cases hdata : i.dataFrom token with
    | none => simp [hother hdata]
    | some data =>
        by_cases htaken : Attended token b i
        · rw [hattended data hdata htaken]
          cases passed serde data <;> simp
        · simp [hno data hdata htaken]
  intro handed hmem
  rw [handedFor_append] at hmem
  exact (List.mem_append.1 hmem).elim (hlog handed) (hstep handed)

/-- **Server framing depends on segmentation.** Whatever else goes on at the server, the messages
of a connection get through exactly if the loop attends to each of its reads and each read brings
one of them. -/
theorem messages_passed_iff {serde : Serde Bytes} (hserde : serde.SingleValue)
    (secondaryServer : Option (SocketAddr × TcpStream)) (inputs : List (Input Bytes))
    (token : Token) (messages : List Message)
    (hstream : (readsOf token inputs).flatten = (messages.map serde.toVec).flatten) :
    Faithful token ((handing serde secondaryServer).run inputs).2 messages ↔
      (handing serde secondaryServer).Along (Attended token) (.serving (new secondaryServer))
        inputs ∧ List.Forall₂ Brings (readsOf token inputs) messages := by
  rw [← reads_passed_iff hserde messages _ hstream]
  refine Iff.trans ?_ (exec_handed_iff serde secondaryServer _ inputs messages)
  refine Iff.trans ?_ (singletons_iff (handedFor_length serde secondaryServer inputs token))
  exact ⟨fun h => ⟨h.all, h.each⟩, fun h => ⟨h.1, h.2⟩⟩

/-- The primary registry connects, and two clients. -/
def arrivals : List (Input Bytes) :=
  [.connection (Env.calm .ascending) 10 ⟨"127.0.0.1", 8888⟩,
    .connection (Env.calm .ascending) 11 ⟨"127.0.0.1", 4001⟩,
    .connection (Env.calm .ascending) 12 ⟨"127.0.0.1", 4002⟩]

/-- The messages of the first client arrive in two reads, of which one ends right before a newline.
Between them the other client leaves. -/
theorem messages_passed_split :
    let create := Message.registry (.request 1 .create 0)
    let write := Message.registry (.request 1 .write 0)
    Faithful 1 ((handing Serde.json none).run (arrivals ++
      [.readable (Env.calm .ascending) 1 (.data create.json),
        .readable (Env.calm .ascending) 2 .eof,
        .readable (Env.calm .ascending) 1 (.data ([newline] ++ write.frame))])).2
      [create, write] := by
  intro create write
  refine (messages_passed_iff Serde.json_singleValue none _ 1 [create, write] ?_).2 ⟨?_, ?_⟩
  · decide +kernel
  · decide +kernel
  · exact .cons ⟨[], [], Or.inl rfl, Or.inl rfl, rfl⟩
      (.cons ⟨[newline], [newline], Or.inr rfl, Or.inr rfl, rfl⟩ .nil)

/-- A create and a write of one client, which arrive in one read. -/
theorem coalesced_refused :
    ¬ ∀ (inputs : List (Input Bytes)) (token : Token) (messages : List Message),
      (∀ read ∈ readsOf token inputs, read ≠ [] ∧ read.length ≤ 256) →
      (readsOf token inputs).flatten = (messages.map Serde.json.toVec).flatten →
      Faithful token ((handing Serde.json none).run inputs).2 messages := by
  intro h
  let create := Message.registry (.request 1 .create 0)
  let write := Message.registry (.request 1 .write 0)
  let read : Input Bytes := .readable (Env.calm .ascending) 1 (.data (create.frame ++ write.frame))
  have hfaithful := h (arrivals ++ [read]) 1 [create, write] (by decide +kernel) (by decide +kernel)
  -- the loop attends to the read and finds no message in it
  have hlost : handedFor 1 (hand Serde.json ((handing Serde.json none).run arrivals).1 read).2
      = [[]] := by
    rw [(handedFor_hand Serde.json 1 _ read).2.1 _ rfl (by decide +kernel),
      passed_two Serde.json_singleValue]
    rfl
  refine hfaithful.each [] ?_ rfl
  rw [IOMachine.run_concat, handedFor_append]
  exact List.mem_append_right _ (hlost.symm ▸ List.mem_singleton_self _)

end RegistryServer

end Soros
