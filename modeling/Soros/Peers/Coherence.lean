import Soros.Peers.Basic
import Soros.Session.Progress

set_option autoImplicit false

/-! # What is read under a lock is current

The registry keeps the data from nobody: it is the clients that change data only while they have
the key for writing, and read it only while they have the key (`Disciplined`). Then what a client
has read from another is what this client has stored last, from the moment `p2p_read` returns until
the reader releases the key (`copies_current`). -/

namespace Soros

open AccessManager (accessOf_ofLock)

/-! ## What a client is inside -/

namespace Session

/-- A client leaves a key only by a call of its own. -/
theorem Turn.inside {s s' : Session} {i : Input} {q : ProcId} {c : Client} {o' : Option Client}
    (h : Turn s s' i q (some c) o') (hawaits : ¬ s.registry.AwaitsPrimary) {k : KeyId}
    (hinside : c.inside k ≠ none) :
    i = .call q .release k ∧ c.running = none ∨ ∃ c', o' = some c' ∧ c'.inside k ≠ none := by
  cases h with
  | stays => exact Or.inr ⟨c, rfl, hinside⟩
  | primary o hprimary =>
      rcases hprimary with hnone | hprimary
      · cases hnone
      · exact absurd hprimary hawaits
  | begins c t k' hi hholds hidle =>
      by_cases hrelease : t = .release ∧ k' = k
      · obtain ⟨rfl, rfl⟩ := hrelease
        exact Or.inl ⟨hi, hidle⟩
      · refine Or.inr ⟨begin c t k', rfl, ?_⟩
        dsimp only [begin]
        split
        · rename_i ht
          rw [Function.update_of_ne fun hk => hrelease ⟨ht, hk.symm⟩]
          exact hinside
        · exact hinside
  | proceeds c b r hproceeds =>
      refine Or.inr ⟨r.1, rfl, ?_⟩
      cases hproceeds with
      | returns t k' response cont hrunning hinbox houtbox hfinal =>
          dsimp only
          rcases learn_final c.inside hfinal with hsame | ⟨-, hlearn⟩
          · rw [hsame]
            exact hinside
          · rw [hlearn, Function.update_apply]
            split
            · exact Option.some_ne_none _
            · exact hinside
      | _ => exact hinside
  | answered | observes => exact Or.inr ⟨_, rfl, hinside⟩

/-- The client is inside the key, for reading or for writing. -/
def Has (s : Session) (p : ProcId) (k : KeyId) : Prop := ∃ c ∈ s.clients p, c.inside k ≠ none

instance (s : Session) (p : ProcId) (k : KeyId) : Decidable (s.Has p k) := by
  unfold Has; infer_instance

instance (s : Session) (p : ProcId) (k : KeyId) (a : RequestType) : Decidable (s.Inside p k a) :=
  decidable_of_iff (∃ c ∈ s.clients p, c.inside k = some a) Iff.rfl

theorem Promising.has_step {s : Session} (h : Promising s) (i : Input) {p : ProcId} {k : KeyId}
    (hhas : s.Has p k) : (s.step i).1.Has p k ∨
      i = .call p .release k ∧ (s.step i).2 = [.called p .release k] := by
  obtain ⟨c, hc, hinside⟩ := hhas
  have htoken := h.invariant.tokens p c hc
  have hawaits : ¬ s.registry.AwaitsPrimary := fun hawaits => by
    have hle := htoken.2
    rw [h.populated.fresh hawaits] at hle
    exact absurd (Nat.le_trans htoken.1 hle) (Nat.not_succ_le_zero 0)
  have hturn := h.invariant.turn i p
  rw [hc] at hturn
  rcases hturn.inside hawaits hinside with ⟨rfl, hidle⟩ | hstays
  · refine Or.inr ⟨rfl, ?_⟩
    simp [Session.step, show s.clients p = some c from hc, hidle]
  · exact Or.inl hstays

/-- While a client has a key for writing, no other client has it. -/
theorem Invariant.sole {s : Session} (h : Invariant s) {p q : ProcId} {k : KeyId}
    (hwriter : Inside s p k .write) (hhas : s.Has q k) : q = p := by
  obtain ⟨c, hc, hinside⟩ := hwriter
  obtain ⟨d, hd, hhas⟩ := hhas
  obtain ⟨a, hinside'⟩ := Option.ne_none_iff_exists'.1 hhas
  have hp := (h.clients p c hc).inside k .write hinside
  have hq := (h.clients q d hd).inside k a hinside'
  unfold holds at hp hq
  cases hks : s.registry.accessManager.keyStates k with
  | none =>
      rw [hks] at hp
      cases hp
  | some ks =>
      obtain ⟨l, creator, rfl⟩ := h.regular.valid.fair k ks hks
      rw [hks, accessOf_ofLock] at hp hq
      obtain ⟨m, hm, hrequest⟩ := Option.map_eq_some_iff.1 hp
      obtain ⟨m', hm', -⟩ := Option.map_eq_some_iff.1 hq
      cases m with
      | read => cases hrequest
      | write => exact l.exclusive.sole hm (by rw [hm']; exact Option.some_ne_none m')

end Session

/-! ## What an answer brings -/

namespace ProtocolClient

/-- Of the frame of some data, `p2p_read` returns this data or an error. -/
theorem p2pRead_frame {keyId : KeyId} {first rest : Bytes} {value data : String}
    (hframe : first ++ rest = (Message.data (.response value)).frame)
    (hreturns : ((p2pRead Serde.json (received false first) keyId).run []).1 = .ok data) :
    data = value := by
  have hparse : Serde.json.fromSlice first = .ok (.data (.response data)) := by
    rw [p2pRead_run] at hreturns
    dsimp only at hreturns
    rw [Bool.false_and, if_neg Bool.false_ne_true] at hreturns
    split at hreturns
    · cases hreturns
    · rename_i data' hparse
      rw [hparse, Outcome.ok.inj hreturns]
    · cases hreturns
  have hstream : first ++ rest = [] ++ ((Message.data (.response value)).frame
      ++ (([] : List Message).map Message.frame).flatten) := by
    rw [hframe]
    simp
  obtain ⟨after, hafter, hfirst⟩ :=
    RegistryServer.brings_of_accepted Serde.json_singleValue (Or.inl rfl) hstream hparse
  have hblank := Serde.json_singleValue.fromSlice_blank (.data (.response value)) [] after
    (by simp [Blank]) hafter.blank
  rw [← hfirst, hparse] at hblank
  simpa using hblank

/-- Of a connection that breaks, it returns nothing. -/
theorem p2pRead_broken {keyId : KeyId} {read : ReadResult Bytes} {data : String}
    (hbroken : ∀ first, read ≠ .data first) :
    ((p2pRead Serde.json ⟨none, none, read, false⟩ keyId).run []).1 ≠ .ok data := by
  cases read with
  | data first => exact absurd rfl (hbroken first)
  | failed e =>
      intro hreturns
      cases hreturns
  | eof =>
      have hempty : ∀ message, Serde.json.fromSlice [] ≠ .ok message := by
        rintro message ⟨⟩
      rw [show (p2pRead Serde.json ⟨none, none, .eof, false⟩ keyId).run []
        = (p2pRead Serde.json (received false []) keyId).run [] from rfl, p2pRead_run]
      dsimp only
      rw [Bool.false_and, if_neg Bool.false_ne_true]
      cases hparse : Serde.json.fromSlice [] with
      | error text => rintro ⟨⟩
      | ok message => exact absurd hparse (hempty message)

end ProtocolClient

namespace Peers

/-! ## What the log says -/

/-- What has happened at the server of `q`. -/
def serverLog (q : ProcId) (log : List Event) : List (P2PServer.Event Bytes) :=
  log.filterMap fun
    | .server q' e => if q' = q then some e else none
    | _ => none

/-- What `q` has stored last under the key. -/
def latest (q : ProcId) (k : KeyId) (log : List Event) : Option String :=
  P2PServer.latest k (serverLog q log)

/-- How an event changes what `p` has of the data of `q`. -/
def Event.copies (p q : ProcId) (k : KeyId) (o : Option String) : Event → Option String
  | .read p' q' k' (.ok data) => if p' = p ∧ q' = q ∧ k' = k then some data else o
  | .session (.called p' .release k') => if p' = p ∧ k' = k then none else o
  -- `p` itself can change its data while it has the key
  | .server q' (.stored _ _) => if q' = p ∧ p = q then none else o
  | _ => o

/-- What `p` has read from `q` under the key, until it releases the key. -/
def copy (p q : ProcId) (k : KeyId) (log : List Event) : Option String :=
  log.foldl (Event.copies p q k) none

theorem copy_append (p q : ProcId) (k : KeyId) (log log' : List Event) :
    copy p q k (log ++ log') = log'.foldl (Event.copies p q k) (copy p q k log) :=
  List.foldl_append

theorem serverLog_append (q : ProcId) (log log' : List Event) :
    serverLog q (log ++ log') = serverLog q log ++ serverLog q log' := List.filterMap_append

@[simp] theorem serverLog_server (q q' : ProcId) (es : List (P2PServer.Event Bytes)) :
    serverLog q (es.map (.server q')) = if q' = q then es else [] := by
  unfold serverLog
  rw [List.filterMap_map]
  split
  · rename_i hq
    simp [hq]
  · rename_i hq
    simp [hq]

@[simp] theorem serverLog_session (q : ProcId) (es : List Session.Event) :
    serverLog q (es.map .session) = [] := by
  simp [serverLog]

@[simp] theorem serverLog_read (q p q' : ProcId) (k : KeyId)
    (result : Outcome ProtocolClientError String) : serverLog q [.read p q' k result] = [] := rfl

/-! ## The discipline of the clients -/

/-- `q` has the key for writing, and is not in the middle of a read from itself. -/
def Writes (s : Peers) (q : ProcId) (k : KeyId) : Prop :=
  s.session.Inside q k .write ∧ ∀ r ∈ s.reads q, r.home ≠ q

/-- **The discipline**: data is read by who has the key, and changed by who has it for writing; who
has nothing under a key may begin to store it. -/
def Disciplined (s : Peers) : Input → Prop
  | .read p _ k => s.session.Has p k
  | .store q (.create k _) =>
      s.Writes q k ∨ (s.servers q).server.dataStore.dataMap k = none
  | .store q (.write k _) => s.Writes q k
  | .store q (.delete k) => s.Writes q k
  | _ => True

instance (s : Peers) (q : ProcId) (k : KeyId) : Decidable (s.Writes q k) := by
  unfold Writes; infer_instance

instance (s : Peers) (i : Input) : Decidable (s.Disciplined i) := by
  unfold Disciplined; split <;> infer_instance

/-! ## The invariant -/

/-- What is on the way of a read, when the home has `o` under the key. -/
inductive InFlight (r : PeerRead) (o : Option String) : Prop where
  | asked (hanswer : r.answer = [])
      (hrequest : r.request = [] ∨ r.request = Serde.json.toVec (.data (.request r.keyId)))
  | answered (value : String) (hrequest : r.request = [])
      (hanswer : r.answer = Serde.json.toVec (.data (.response value))) (hvalue : o = some value)

/-- **The invariant**: readers have their keys, and what is on the way or has been read is what
is stored. -/
structure Coherent (s : Peers) (log : List Event) : Prop where
  session : s.session.Promising
  servers : ∀ q, P2PServer.Tracks (s.servers q).server (serverLog q log)
  reading : ∀ p r, s.reads p = some r →
    s.session.Has p r.keyId ∧ InFlight r (latest r.home r.keyId log)
  copies : ∀ p q k data, copy p q k log = some data →
    s.session.Has p k ∧ latest q k log = some data

variable {s : Peers} {log : List Event}

/-! ### Servers -/

/-- Only the methods of the data store change what is stored. -/
theorem step_stores {b : P2PServer.Bind} {i : P2PServer.Input Bytes} (hi : ∀ c, i ≠ .store c)
    {e : P2PServer.Event Bytes} (he : e ∈ (P2PServer.step Serde.json b i).2) :
    ∀ c outcome, e ≠ .stored c outcome := by
  rintro c outcome rfl
  cases i with
  | store c => exact hi c rfl
  | pollFailed | acceptFailed | connection => cases b <;> simp [P2PServer.step] at he
  | readable env token read =>
      cases b with
      | serving self =>
          dsimp only [P2PServer.step] at he
          split at he <;> simp at he
      | returned | gone => simp [P2PServer.step] at he

section

variable {es : List (P2PServer.Event Bytes)} (hes : ∀ e ∈ es, ∀ c outcome, e ≠ .stored c outcome)

include hes

theorem latest_quiet (q q' : ProcId) (k : KeyId) :
    latest q k (log ++ es.map (.server q')) = latest q k log := by
  unfold latest
  rw [serverLog_append, serverLog_server]
  split
  · rw [P2PServer.latest, List.foldl_append]
    refine foldl_stays fun e he => ?_
    cases e with
    | stored c outcome => exact absurd rfl (hes _ he c outcome)
    | connected | read => rfl
  · rw [List.append_nil]

theorem copy_quiet (p q q' : ProcId) (k : KeyId) :
    copy p q k (log ++ es.map (.server q')) = copy p q k log := by
  rw [copy_append]
  refine foldl_stays fun e hmem => ?_
  obtain ⟨e, he, rfl⟩ := List.mem_map.1 hmem
  cases e with
  | stored c outcome => exact absurd rfl (hes _ he c outcome)
  | connected | read => rfl

end

theorem serve_events (s : Peers) (q : ProcId) (i : P2PServer.Input Bytes) : (s.serve q i).2
    = (P2PServer.step Serde.json (s.servers q) i).2.map (.server q) := rfl

/-- A step of a server in which its client does nothing. -/
theorem Coherent.serve (h : Coherent s log) (q : ProcId) {i : P2PServer.Input Bytes}
    (hi : ∀ c, i ≠ .store c) : Coherent (s.serve q i).1 (log ++ (s.serve q i).2) := by
  have hes := fun e => step_stores (b := s.servers q) (e := e) hi
  refine ⟨h.session, fun q' => ?_, fun p r hr => ?_, fun p q' k data hcopy => ?_⟩
  · rw [serverLog_append]
    dsimp only [Peers.serve]
    rw [serverLog_server]
    by_cases hq : q' = q
    · subst hq
      rw [Function.update_self, if_pos rfl]
      exact (P2PServer.step_tracks Serde.json (h.servers q') i).1
    · rw [Function.update_of_ne hq, if_neg (Ne.symm hq), List.append_nil]
      exact h.servers q'
  · rw [serve_events, latest_quiet hes]
    exact h.reading p r hr
  · rw [serve_events, copy_quiet hes] at hcopy
    rw [serve_events, latest_quiet hes]
    exact h.copies p q' k data hcopy

/-- A read has got further. -/
theorem Coherent.setRead (h : Coherent s log) (p : ProcId) {r : PeerRead}
    (hhas : s.session.Has p r.keyId) (hflight : InFlight r (latest r.home r.keyId log)) :
    Coherent (s.setRead p (some r)) log := by
  refine ⟨h.session, h.servers, fun p' r' hr' => ?_, h.copies⟩
  dsimp only [Peers.setRead] at hr'
  by_cases hp : p' = p
  · subst hp
    rw [Function.update_self] at hr'
    cases hr'
    exact ⟨hhas, hflight⟩
  · rw [Function.update_of_ne hp] at hr'
    exact h.reading p' r' hr'

/-! ### Data stores -/

/-- A client that may change the data of a key is the only one that has it. -/
theorem Coherent.alone (h : Coherent s log) {p q : ProcId} {k : KeyId} (hwrites : s.Writes q k)
    (hhas : s.session.Has p k) : p = q ∧ ∀ r ∈ s.reads p, r.home ≠ q := by
  obtain rfl := h.session.invariant.sole hwrites.1 hhas
  exact ⟨rfl, hwrites.2⟩

/-- **What a client relies on is not changed**, except by this client when it does not read from
itself. -/
theorem Coherent.spares (h : Coherent s log) {p q : ProcId} {k : KeyId} {c : DataStore.Call}
    (hdisciplined : s.Disciplined (.store q c)) (hhas : s.session.Has p k)
    (hp : p = q → ∃ r ∈ s.reads p, r.home = q) {data : String} (hlatest : latest q k log = some data)
    (outcome : Outcome DataStoreError (Option String)) :
    P2PServer.Event.stores k (some data) (.stored c outcome : P2PServer.Event Bytes) = some data := by
  have hno : ¬ s.Writes q k := fun hwrites => by
    obtain ⟨hpq, hno⟩ := h.alone hwrites hhas
    obtain ⟨r, hr, hhome⟩ := hp hpq
    exact hno r hr hhome
  have hthere : (s.servers q).server.dataStore.dataMap k ≠ none := by
    rw [(h.servers q).store k, show P2PServer.latest k (serverLog q log) = some data from hlatest]
    exact Option.some_ne_none data
  cases c with
  | get key => rfl
  | create key data' =>
      have hkey : key ≠ k := by
        rintro rfl
        exact hdisciplined.elim hno hthere
      cases outcome <;> simp [P2PServer.Event.stores, hkey]
  | write key data' =>
      have hkey : key ≠ k := by
        rintro rfl
        exact hno hdisciplined
      cases outcome <;> simp [P2PServer.Event.stores, hkey]
  | delete key =>
      have hkey : key ≠ k := by
        rintro rfl
        exact hno hdisciplined
      cases outcome <;> simp [P2PServer.Event.stores, hkey]

theorem latest_stored (q q' : ProcId) (k : KeyId) (c : DataStore.Call)
    (outcome : Outcome DataStoreError (Option String)) :
    latest q k (log ++ [.server q' (.stored c outcome)])
      = if q' = q then P2PServer.Event.stores k (latest q k log)
          (.stored c outcome : P2PServer.Event Bytes) else latest q k log := by
  unfold latest
  rw [serverLog_append, show [Event.server q' (.stored c outcome)]
    = [P2PServer.Event.stored c outcome].map (Event.server q') from rfl, serverLog_server]
  split
  · exact P2PServer.latest_concat k _ _
  · rw [List.append_nil]

theorem Coherent.store (h : Coherent s log) {q : ProcId} {c : DataStore.Call}
    (hdisciplined : s.Disciplined (.store q c)) :
    Coherent (s.serve q (.store c)).1 (log ++ (s.serve q (.store c)).2) := by
  obtain ⟨outcome, houtcome⟩ : ∃ outcome, (s.serve q (.store c)).2
      = [.server q (.stored c outcome)] := ⟨_, rfl⟩
  refine ⟨h.session, fun q' => ?_, fun p r hr => ?_, fun p q' k data hcopy => ?_⟩
  · rw [serverLog_append, serve_events, serverLog_server]
    dsimp only [Peers.serve]
    by_cases hq : q' = q
    · subst hq
      rw [Function.update_self, if_pos rfl]
      exact (P2PServer.step_tracks Serde.json (h.servers q') (.store c)).1
    · rw [Function.update_of_ne hq, if_neg (Ne.symm hq), List.append_nil]
      exact h.servers q'
  · obtain ⟨hhas, hflight⟩ := h.reading p r hr
    refine ⟨hhas, ?_⟩
    cases hflight with
    | asked hanswer hrequest => exact .asked hanswer hrequest
    | answered value hrequest hanswer hvalue =>
        refine .answered value hrequest hanswer ?_
        rw [houtcome, latest_stored]
        split
        · rename_i hq
          subst hq
          rw [hvalue]
          exact h.spares hdisciplined hhas (fun _ => ⟨r, hr, rfl⟩) hvalue outcome
        · exact hvalue
  · rw [houtcome, copy_append] at hcopy
    dsimp only [List.foldl_cons, List.foldl_nil, Event.copies] at hcopy
    split at hcopy
    · cases hcopy
    · rename_i hown
      obtain ⟨hhas, hlatest⟩ := h.copies p q' k data hcopy
      refine ⟨hhas, ?_⟩
      rw [houtcome, latest_stored]
      split
      · rename_i hq
        subst hq
        rw [hlatest]
        exact h.spares hdisciplined hhas (fun hp => absurd ⟨hp.symm, hp⟩ hown) hlatest outcome
      · exact hlatest

/-! ### Sessions -/

theorem latest_session (q : ProcId) (k : KeyId) (es : List Session.Event) :
    latest q k (log ++ es.map .session) = latest q k log := by
  unfold latest
  rw [serverLog_append, serverLog_session, List.append_nil]

/-- What is there after a step of the session has been there before, and is not released in it. -/
theorem copy_session {p q : ProcId} {k : KeyId} {data : String} {es : List Session.Event}
    (hcopy : copy p q k (log ++ es.map .session) = some data) :
    copy p q k log = some data ∧ .called p .release k ∉ es := by
  induction es generalizing log with
  | nil => exact ⟨by simpa using hcopy, List.not_mem_nil⟩
  | cons e es ih =>
      rw [List.map_cons, ← List.singleton_append, ← List.append_assoc] at hcopy
      obtain ⟨hfirst, hrest⟩ := ih hcopy
      rw [copy_append, List.foldl_cons, List.foldl_nil] at hfirst
      rw [List.mem_cons, not_or]
      by_cases he : e = .called p .release k
      · subst he
        simp [Event.copies] at hfirst
      · refine ⟨?_, Ne.symm he, hrest⟩
        rw [← hfirst]
        cases e with
        | called p' t k' =>
            cases t with
            | release =>
                have hno : ¬ (p' = p ∧ k' = k) := by
                  rintro ⟨rfl, rfl⟩
                  exact he rfl
                exact (if_neg hno).symm
            | create | delete | read | write => rfl
        | returned | asked | sent => rfl

theorem Coherent.inSession (h : Coherent s log) {i : Session.Input} (hfree : s.borrowed i = false) :
    Coherent { s with session := (s.session.step i).1 }
      (log ++ (s.session.step i).2.map .session) := by
  refine ⟨h.session.step i, fun q => ?_, fun p r hr => ?_, fun p q k data hcopy => ?_⟩
  · rw [serverLog_append, serverLog_session, List.append_nil]
    exact h.servers q
  · obtain ⟨hhas, hflight⟩ := h.reading p r hr
    rw [latest_session]
    refine ⟨?_, hflight⟩
    rcases h.session.has_step i hhas with hstays | ⟨rfl, -⟩
    · exact hstays
    · simp [borrowed, show s.reads p = some r from hr] at hfree
  · obtain ⟨hbefore, hstays⟩ := copy_session hcopy
    obtain ⟨hhas, hlatest⟩ := h.copies p q k data hbefore
    rw [latest_session]
    refine ⟨?_, hlatest⟩
    rcases h.session.has_step i hhas with hinside | ⟨-, hcalled⟩
    · exact hinside
    · exact absurd (by rw [hcalled]; exact List.mem_singleton_self _) hstays

/-! ### Reads -/

theorem dial_request (q : ProcId) (k : KeyId) (stream : TcpStream) :
    (dial q k stream).request = Serde.json.toVec (.data (.request k)) := by
  dsimp only [dial]
  rw [ProtocolClient.p2pRead_run]
  exact List.flatten_singleton

theorem InFlight.withToken {r : PeerRead} {o : Option String} (h : InFlight r o)
    (token : Option Token) : InFlight { r with token } o := by
  cases h with
  | asked hanswer hrequest => exact .asked hanswer hrequest
  | answered value hrequest hanswer hvalue => exact .answered value hrequest hanswer hvalue

theorem InFlight.request {r : PeerRead} {o : Option String} (h : InFlight r o)
    (hrequest : r.request ≠ []) : r.request = Serde.json.toVec (.data (.request r.keyId)) := by
  cases h with
  | asked hanswer h => exact h.resolve_left hrequest
  | answered value hnone => exact absurd hnone hrequest

theorem readable_events (b : P2PServer.Bind) (env : P2PServer.Env) (token : Token)
    (read : ReadResult Bytes) :
    (P2PServer.step Serde.json b (.readable env token read)).2 = [] ∨
      ∃ written, (P2PServer.step Serde.json b (.readable env token read)).2
        = [.read token read written] := by
  cases b with
  | serving self =>
      dsimp only [P2PServer.step]
      split
      · exact Or.inr ⟨_, rfl⟩
      · exact Or.inl rfl
  | returned | gone => exact Or.inl rfl

/-- **What the home answers** is what it has stored last. -/
theorem Coherent.answers (h : Coherent s log) {r : PeerRead} {token : Token}
    (hrequest : r.request = Serde.json.toVec (.data (.request r.keyId))) (env : P2PServer.Env) :
    InFlight { r with
      request := []
      answer := arrived r.stream (s.serve r.home (.readable env token (.data r.request))).2 }
      (latest r.home r.keyId log) := by
  rw [serve_events]
  have hanswers :=
    (P2PServer.step_tracks Serde.json (h.servers r.home) (.readable env token (.data r.request))).2
  rcases readable_events (s.servers r.home) env token (.data r.request) with hnone | ⟨written, hread⟩
  · rw [hnone]
    exact .asked rfl (Or.inl rfl)
  · rw [hread] at hanswers ⊢
    rcases hanswers [] _ [] rfl with rfl | ⟨data, key, value, stream, hdata, hparse, hvalue, -, -, rfl⟩
    · exact .asked rfl (Or.inl rfl)
    · cases hdata
      -- the home has read the request of the client
      rw [hrequest, Serde.json.fromSlice_toVec] at hparse
      cases hparse
      rw [List.append_nil] at hvalue
      by_cases hstream : stream = r.stream
      · refine .answered value rfl ?_ hvalue
        simp [arrived, hstream]
      · refine .asked ?_ (Or.inl rfl)
        simp [arrived, hstream]

/-- **What `p2p_read` returns** is what the home has stored last. -/
theorem InFlight.returns {r : PeerRead} {o : Option String} (h : InFlight r o)
    {read : ReadResult Bytes} (hreceives : receives r.answer read = true) {data : String}
    (hreturns : ((ProtocolClient.p2pRead Serde.json ⟨none, none, read, false⟩ r.keyId).run []).1
      = .ok data) : o = some data := by
  cases read with
  | eof | failed => exact absurd hreturns (ProtocolClient.p2pRead_broken (by rintro first ⟨⟩))
  | data first =>
      simp only [receives, Bool.and_eq_true, Bool.not_eq_true', List.isEmpty_eq_false_iff,
        List.isPrefixOf_iff_prefix] at hreceives
      obtain ⟨⟨hsome, -⟩, rest, hanswer⟩ := hreceives
      cases h with
      | asked hnone =>
          rw [hnone] at hanswer
          exact absurd (List.append_eq_nil_iff.1 hanswer).1 hsome
      | answered value hrequest hframe hvalue =>
          rw [hframe, Serde.json_singleValue.toVec_eq] at hanswer
          rw [hvalue, ProtocolClient.p2pRead_frame hanswer hreturns]

theorem Coherent.receive (h : Coherent s log) {p : ProcId} {r : PeerRead} (hr : s.reads p = some r)
    {read : ReadResult Bytes} (hreceives : receives r.answer read = true)
    (closed : List (ProcId × Token)) :
    Coherent { s.setRead p none with closed } (log ++ [.read p r.home r.keyId
      ((ProtocolClient.p2pRead Serde.json ⟨none, none, read, false⟩ r.keyId).run []).1]) := by
  obtain ⟨hhas, hflight⟩ := h.reading p r hr
  obtain ⟨result, hresult⟩ : ∃ result, result
      = ((ProtocolClient.p2pRead Serde.json ⟨none, none, read, false⟩ r.keyId).run []).1 := ⟨_, rfl⟩
  have hlatest : ∀ q k, latest q k (log ++ [.read p r.home r.keyId result]) = latest q k log := by
    intro q k
    unfold latest
    rw [serverLog_append, serverLog_read, List.append_nil]
  rw [← hresult]
  refine ⟨h.session, fun q => ?_, fun p' r' hr' => ?_, fun p' q k data hcopy => ?_⟩
  · rw [serverLog_append, serverLog_read, List.append_nil]
    exact h.servers q
  · rw [hlatest]
    by_cases hp : p' = p
    · simp [Peers.setRead, hp] at hr'
    · exact h.reading p' r' (by simpa [Peers.setRead, hp] using hr')
  · rw [hlatest]
    rw [copy_append, List.foldl_cons, List.foldl_nil] at hcopy
    cases result with
    | err | panic | exit => exact h.copies p' q k data hcopy
    | ok data' =>
        dsimp only [Event.copies] at hcopy
        split at hcopy
        · rename_i hsame
          obtain ⟨rfl, rfl, rfl⟩ := hsame
          cases hcopy
          exact ⟨hhas, hflight.returns hreceives hresult.symm⟩
        · exact h.copies p' q k data hcopy

/-! ### Runs -/

theorem Coherent.step (h : Coherent s log) {i : Input} (hdisciplined : s.Disciplined i) :
    Coherent (s.step i).1 (log ++ (s.step i).2) := by
  have hidle : Coherent s (log ++ []) := by
    rw [List.append_nil]
    exact h
  cases i with
  | session i =>
      dsimp only [Peers.step]
      split
      · exact hidle
      · rename_i hfree
        exact h.inSession (Bool.eq_false_of_not_eq_true hfree)
  | store q c => exact h.store hdisciplined
  | read p q k =>
      dsimp only [Peers.step]
      split
      · rw [List.append_nil]
        have hnext := h.setRead p (r := dial q k s.nextStream) hdisciplined
          (.asked rfl (Or.inr (dial_request q k s.nextStream)))
        exact ⟨hnext.session, hnext.servers, hnext.reading, hnext.copies⟩
      · exact hidle
  | accept p env =>
      dsimp only [Peers.step]
      split
      · rename_i r hr
        split
        · have hserved := h.serve r.home (i := .connection env r.stream) (by rintro c ⟨⟩)
          obtain ⟨hhas, hflight⟩ := hserved.reading p r hr
          exact hserved.setRead p hhas (hflight.withToken _)
        · exact hidle
      · exact hidle
  | answer p env =>
      dsimp only [Peers.step]
      split
      · rename_i r hr
        split
        · rename_i token b bytes htoken hrequest
          obtain ⟨hhas, hflight⟩ := h.reading p r hr
          have hasked : r.request = Serde.json.toVec (.data (.request r.keyId)) :=
            hflight.request (by rw [hrequest]; exact List.cons_ne_nil b bytes)
          have hreads : ∀ c, P2PServer.Input.readable env token (.data r.request) ≠ .store c := by
            rintro c ⟨⟩
          refine (h.serve r.home hreads).setRead p hhas ?_
          rw [serve_events, latest_quiet fun e => step_stores hreads]
          exact h.answers hasked env
        · exact hidle
      · exact hidle
  | receive p read =>
      dsimp only [Peers.step]
      split
      · rename_i r hr
        split
        · rename_i hreceives
          exact h.receive hr hreceives _
        · exact hidle
      · exact hidle
  | hangUp q token =>
      dsimp only [Peers.step]
      split
      · have hserved := h.serve q (i := .readable .calm token .eof) (by rintro c ⟨⟩)
        exact ⟨hserved.session, hserved.servers, hserved.reading, hserved.copies⟩
      · exact hidle

theorem run_coherent (secondaryServer : Option (SocketAddr × TcpStream))
    (peerAddr : ProcId → SocketAddr) (inputs : List Input)
    (hdisciplined : (machine secondaryServer peerAddr).Along Disciplined
      (machine secondaryServer peerAddr).start inputs) :
    Coherent ((machine secondaryServer peerAddr).run inputs).1
      ((machine secondaryServer peerAddr).run inputs).2 := by
  refine IOMachine.run_induction_along (M := machine secondaryServer peerAddr) Coherent
    ⟨Session.run_promising secondaryServer [], fun q => ⟨fun k => rfl, rfl, ?_⟩, ?_, ?_⟩
    (fun s log i hC hP => hP.step hC) inputs hdisciplined
  · rintro token stream ⟨⟩
  · rintro p r ⟨⟩
  · rintro p q k data ⟨⟩

/-- **Data read under a lock is current.** In every run of clients that keep the discipline, however
their calls, the registry, the servers and the network are interleaved, what a client has read from
another is what this client has stored last, as long as the reader has not released the key. -/
theorem copies_current (secondaryServer : Option (SocketAddr × TcpStream))
    (peerAddr : ProcId → SocketAddr) (inputs : List Input)
    (hdisciplined : (machine secondaryServer peerAddr).Along Disciplined
      (machine secondaryServer peerAddr).start inputs) (p q : ProcId) (k : KeyId) (data : String)
    (hcopy : copy p q k ((machine secondaryServer peerAddr).run inputs).2 = some data) :
    latest q k ((machine secondaryServer peerAddr).run inputs).2 = some data :=
  ((run_coherent secondaryServer peerAddr inputs hdisciplined).copies p q k data hcopy).2

/-- A call of `p` that is answered at once. -/
def call (p : ProcId) (t : RequestType) (k : KeyId) : List Input :=
  [.session (.call p t k), .session (.proceed p), .session (.serve p .ascending),
    .session (.proceed p), .session (.proceed p)]

/-- One client creates a key and stores its data, and changes it; another reads it. -/
def shared : List Input :=
  [.session (.connect ⟨"127.0.0.1", 4000⟩), .session (.connect ⟨"127.0.0.1", 4001⟩),
    .session (.connect ⟨"127.0.0.1", 4002⟩)] ++
  call 1 .create 1 ++ [.store 1 (.create 1 "inital data")] ++
  call 1 .write 1 ++ [.store 1 (.write 1 "new data")] ++ call 1 .release 1 ++
  call 2 .read 1 ++ [.read 2 1 1, .accept 2 .calm, .answer 2 .calm,
    .receive 2 (.data (Message.data (.response "new data")).frame)]

theorem copies_current_shared :
    latest 1 1 ((machine none fun _ => ⟨"0.0.0.0", 6001⟩).run shared).2 = some "new data" :=
  copies_current none _ shared (by decide +kernel) 2 1 1 "new data" (by decide +kernel)

end Peers

end Soros
