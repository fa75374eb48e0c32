import Soros.AccessManager.Outstanding
import Soros.Lib.Atomic
import Soros.RegistryServer.Refused
import Soros.Session.Progress
import Soros.Session.Segments

set_option autoImplicit false

/-! # Sessions are linearizable

To its clients the registry is a table of keys (`keyTable`), each with the list of the requests
that are outstanding on it. A call takes effect when the registry reads its message, in one step,
and the others see all of it or nothing. A client that is granted its request at once, and one
that is told to wait and then told of the grant, cannot tell the two apart: `read` and `write`
return when the request is among those that are admitted. `linearizable` says this of every
session. -/

namespace Soros

open RwLock
open AccessManager (Outstanding accessOf accessOf_ofLock)
open ProtocolClient (confirm settle outcome)
open RegistryServer (spoken callOf)

namespace Session

/-! ## The table of keys -/

/-- What a request makes of its key: it is refused, or this is what is outstanding then. -/
def requested (p : ProcId) : RequestType → KeyId → Option Outstanding →
    Except AccessManagerError (Option Outstanding)
  | .create, _, none => .ok (some (p, []))
  | .create, k, some _ => .error (.keyExists k)
  | _, k, none => .error (.keyNotFound k)
  | .delete, _, some (_, []) => .ok none
  | .delete, _, some _ => .error .keyAccessed
  | .read, _, some (c, es) => .ok (some (c, es ++ [(p, .read)]))
  | .write, _, some (c, es) => .ok (some (c, es ++ [(p, .write)]))
  | .release, k, some (c, es) =>
      if ∃ e ∈ admitted es, e.1 = p then .ok (some (c, quit p es)) else .error (.releaseAccess p k)

/-- A request for access is admitted. -/
def Admitted (p : ProcId) (t : RequestType) (o : Option Outstanding) : Prop :=
  ∀ m, t = requestOf m → ∃ c es, o = some (c, es) ∧ (p, m) ∈ admitted es

/-- **The object that the registry is to its clients.** The verdict is the error, if any. -/
def keyTable : Atomic.Object ProcId (RequestType × KeyId) (KeyId → Option Outstanding)
    (Option AccessManagerError) (Except ProtocolClientError (Option SocketAddr)) where
  start := fun _ => none
  serve p op s :=
    match requested p op.1 op.2 (s op.2) with
    | .ok o => (Function.update s op.2 o, none)
    | .error e => (s, some e)
  returns p op v s r :=
    match v with
    | some e => r = .error (.registryError (RegistryServerError.accessManager e).text)
    | none => r.map Option.isSome = .ok (op.1 == .read) ∧ Admitted p op.1 (s op.2)

/-- What an event of a session is to the table. -/
def callEvent : Event → Option (Atomic.Event ProcId (RequestType × KeyId)
    (Except ProtocolClientError (Option SocketAddr)))
  | .called p t k => some (.invoked p (t, k))
  | .asked _ (.registry (.request p t k)) => some (.served p (t, k))
  | .returned p t k r => some (.returned p (t, k) r)
  | _ => none

/-! ## What the registry answers -/

variable {r : RegistryServer} {p : ProcId} {t : RequestType} {k : KeyId}
  {result : Except RegistryServerError RegistryResponse}

theorem lock_of_keyState {o : Option Outstanding} {l : FairLock ProcId} {c : ProcId}
    (h : o.map Outstanding.keyState = some (KeyState.ofLock l.toLock c)) :
    ∃ es, o = some (c, es) ∧ l = FairLock.ofRequests es := by
  obtain ⟨⟨c', es⟩, rfl, hkey⟩ := Option.map_eq_some_iff.1 h
  have hcreator : c' = c := congrArg KeyState.creator hkey
  have hlock := RegistryServer.ofLock_inj hkey
  obtain ⟨lock, hexclusive, hsaturated⟩ := l
  dsimp only at hlock
  subst hlock hcreator
  exact ⟨es, rfl, rfl⟩

/-- An error of the access manager that is no `Wait` is passed on. -/
theorem spoken_refused {e : AccessManagerError} (he : ∀ q k', e ≠ .requestAccess q k')
    (h : r.answer t k (.err e) = .ofExcept result) :
    spoken result = .error (RegistryServerError.accessManager e).text := by
  have herr : r.answer t k (.err e) = .err (.accessManager e) := by
    cases e with
    | requestAccess q k' => exact absurd rfl (he q k')
    | sendError | releaseAccess | keyAccessed | keyExists | keyNotFound => rfl
  rw [herr] at h
  cases result with
  | ok response => cases h
  | error e' =>
      cases h
      rfl

theorem spoken_ok {holder : Option ProcId} (h : r.answer t k (.ok holder) = .ofExcept result)
    (hknown : ∀ holder, result ≠ .error (.unknownHolder holder)) (text : String) :
    spoken result ≠ .error text := by
  cases result with
  | ok response =>
      cases holder with
      | none =>
          cases h
          simp [spoken]
      | some holder =>
          cases haddr : r.tokenAddrMap holder with
          | none => simp [RegistryServer.answer, haddr, Outcome.ofExcept] at h
          | some addr =>
              have hresponse : RegistryResponse.holder k addr = response := by
                simpa [RegistryServer.answer, haddr, Outcome.ofExcept] using h
              simp [spoken, ← hresponse]
  | error e =>
      cases holder with
      | none => cases h
      | some holder =>
          cases haddr : r.tokenAddrMap holder with
          | none =>
              have herr : RegistryServerError.unknownHolder holder = e := by
                simpa [RegistryServer.answer, haddr, Outcome.ofExcept] using h
              exact absurd (by rw [herr]) (hknown holder)
          | some addr => simp [RegistryServer.answer, haddr, Outcome.ofExcept] at h

theorem spoken_wait {m : Mode} {q : ProcId} {k' : KeyId}
    (h : r.answer (requestOf m) k (.err (.requestAccess q k')) = .ofExcept result)
    (text : String) : spoken result ≠ .error text := by
  cases m <;> cases result <;> cases h <;> simp [spoken]

/-- **What the registry makes of a request is what the table makes of it**, and it answers with an
error if the table refuses it. -/
theorem spoken_requested {o : Option Outstanding} {o' : Option KeyState}
    {out : Outcome AccessManagerError (Option ProcId)} {messages : List AccessGranted}
    (heffect : AccessManager.Effect (callOf p t k) (o.map Outstanding.keyState) out messages o')
    (hanswer : r.answer t k out = .ofExcept result)
    (hknown : ∀ holder, result ≠ .error (.unknownHolder holder)) :
    (∃ o₁, requested p t k o = .ok o₁ ∧ o' = o₁.map Outstanding.keyState ∧
      ∀ text, spoken result ≠ .error text) ∨
    ∃ e, requested p t k o = .error e ∧ o' = o.map Outstanding.keyState ∧
      spoken result = .error (RegistryServerError.accessManager e).text := by
  generalize hc : callOf p t k = call at heffect
  generalize ho : o.map Outstanding.keyState = ks at heffect
  cases heffect with
  | missing c hcreate =>
      obtain rfl : o = none := by simpa using ho
      have hkey : call.key = k := by rw [← hc, RegistryServer.callOf_key]
      rw [hkey] at hanswer
      refine Or.inr ⟨.keyNotFound k, ?_, rfl, spoken_refused (by simp) hanswer⟩
      cases t with
      | create => exact absurd hc.symm (hcreate p k)
      | delete | read | write | release => rfl
  | present q k' ks =>
      cases t <;> cases hc
      obtain ⟨o, rfl, hks⟩ := Option.map_eq_some_iff.1 ho
      exact Or.inr ⟨.keyExists k, rfl, rfl, spoken_refused (by simp) hanswer⟩
  | create q k' =>
      cases t <;> cases hc
      obtain rfl : o = none := by simpa using ho
      exact Or.inl ⟨_, rfl, rfl, spoken_ok hanswer hknown⟩
  | busy k' l c hidle =>
      cases t <;> cases hc
      obtain ⟨es, rfl, rfl⟩ := lock_of_keyState ho
      obtain ⟨e, es, rfl⟩ := List.exists_cons_of_ne_nil
        fun hno => hidle ((AccessManager.ofRequests_idle es).2 hno)
      exact Or.inr ⟨.keyAccessed, rfl, rfl, spoken_refused (by simp) hanswer⟩
  | delete k' l c hidle =>
      cases t <;> cases hc
      obtain ⟨es, rfl, rfl⟩ := lock_of_keyState ho
      obtain rfl := (AccessManager.ofRequests_idle es).1 hidle
      exact Or.inl ⟨none, rfl, rfl, spoken_ok hanswer hknown⟩
  | read k' l c q holder hask hholder =>
      cases t <;> cases hc
      obtain ⟨es, rfl, rfl⟩ := lock_of_keyState ho
      refine Or.inl ⟨_, rfl, ?_, spoken_ok hanswer hknown⟩
      rw [(FairLock.ask_ofRequests es p .read).1]
      rfl
  | write k' l c q hask =>
      cases t <;> cases hc
      obtain ⟨es, rfl, rfl⟩ := lock_of_keyState ho
      refine Or.inl ⟨_, rfl, ?_, spoken_ok hanswer hknown⟩
      rw [(FairLock.ask_ofRequests es p .write).1]
      rfl
  | wait k' l c q m hask =>
      obtain ⟨es, rfl, rfl⟩ := lock_of_keyState ho
      rw [(FairLock.ask_ofRequests es q m).1]
      cases m with
      | read =>
          cases t <;> cases hc
          exact Or.inl ⟨_, rfl, rfl, spoken_wait (m := .read) hanswer⟩
      | write =>
          cases t <;> cases hc
          exact Or.inl ⟨_, rfl, rfl, spoken_wait (m := .write) hanswer⟩
  | unheld k' l c q hmode =>
      cases t <;> cases hc
      obtain ⟨es, rfl, rfl⟩ := lock_of_keyState ho
      have hnone : ¬ ∃ e ∈ admitted es, e.1 = p := by
        rw [FairLock.ofRequests_mode_eq_none] at hmode
        simpa using hmode
      exact Or.inr ⟨_, if_neg hnone, rfl, spoken_refused (by simp) hanswer⟩
  | release k' l c q hmode =>
      cases t <;> cases hc
      obtain ⟨es, rfl, rfl⟩ := lock_of_keyState ho
      have hsome : ∃ e ∈ admitted es, e.1 = p := by
        rw [Ne, FairLock.ofRequests_mode_eq_none] at hmode
        simpa using hmode
      refine Or.inl ⟨_, if_pos hsome, ?_, spoken_ok hanswer hknown⟩
      rw [(FairLock.leave_ofRequests es p).1]
      rfl

/-- The answer tells a verdict. -/
def Tells (response : RegistryResponse) : Option AccessManagerError → Prop
  | none => ∀ text, response ≠ .error text
  | some e => response = .error (RegistryServerError.accessManager e).text

/-- The request changes its key at most, and its answer tells the verdict. -/
theorem table_serves {s : KeyId → Option Outstanding} {o' : Option KeyState}
    {out : Outcome AccessManagerError (Option ProcId)} {messages : List AccessGranted}
    (heffect : AccessManager.Effect (callOf p t k) ((s k).map Outstanding.keyState) out messages o')
    (hanswer : r.answer t k out = .ofExcept result)
    (hknown : ∀ holder, result ≠ .error (.unknownHolder holder)) :
    ∃ o v, keyTable.serve p (t, k) s = (Function.update s k o, v) ∧
      o' = o.map Outstanding.keyState ∧ Tells (spoken result) v := by
  rcases spoken_requested heffect hanswer hknown with ⟨o, hrequested, hkey, hno⟩ |
    ⟨e, hrequested, hkey, htext⟩
  · refine ⟨o, none, ?_, hkey, hno⟩
    dsimp only [keyTable]
    rw [hrequested]
  · refine ⟨s k, some e, ?_, hkey, htext⟩
    dsimp only [keyTable]
    rw [hrequested, Function.update_eq_self]

/-! ## Where a call stands -/

variable {c : Client}

/-- The registry has not read the request of the call in progress. -/
def unread (c : Client) : Bool :=
  match c.running with
  | some (_, _, .call (.call (.writeAll _)) _) => true
  | _ => !c.outbox.isEmpty

theorem unread_starting (h : c.running = some (t, k, c.self.syncCall t k)) : unread c = true := by
  obtain ⟨rest, hcall, -⟩ := c.self.syncCall_writes t k
  simp [unread, h, hcall]

theorem unread_confirm (h : c.running = some (t, k, c.self.confirm t k)) :
    unread c = !c.outbox.isEmpty := by
  obtain ⟨rest, hcall, -⟩ := c.self.confirm_peeks t k
  simp [unread, h, hcall]

theorem unread_receive
    {cont : SocketOp.receive.Result → ProtocolClient.Method (Option SocketAddr)}
    (h : c.running = some (t, k, .call .receive cont)) : unread c = !c.outbox.isEmpty := by
  simp [unread, h]

/-- The client is being told of the verdict. -/
def Told (c : Client) : Option AccessManagerError → Prop
  | none => ∀ text, said (.error text) ∉ c.inbox
  | some e => said (.error (RegistryServerError.accessManager e).text) ∈ c.inbox

theorem told_of_tells {response : RegistryResponse} {v : Option AccessManagerError}
    (h : Tells response v) (hinbox : c.inbox = [said response]) : Told c v := by
  cases v with
  | none =>
      intro text hmem
      rw [hinbox, List.mem_singleton] at hmem
      exact h text (by simpa [said] using hmem.symm)
  | some e =>
      show said _ ∈ c.inbox
      rw [hinbox, show response = _ from h]
      exact List.mem_singleton_self _

/-- **Where the call of a client stands**, to the table. -/
inductive Stands : Option Client →
    Option (Atomic.Stage (RequestType × KeyId) (Option AccessManagerError)) → Prop where
  | nobody : Stands none none
  | idle (c : Client) (hrunning : c.running = none) : Stands (some c) none
  | invoked (c : Client) (t : RequestType) (k : KeyId)
      (rest : ProtocolClient.Method (Option SocketAddr)) (hrunning : c.running = some (t, k, rest))
      (hunread : unread c = true) : Stands (some c) (some (.invoked (t, k)))
  | served (c : Client) (t : RequestType) (k : KeyId) (v : Option AccessManagerError)
      (rest : ProtocolClient.Method (Option SocketAddr)) (hrunning : c.running = some (t, k, rest))
      (hread : unread c = false) (htold : Told c v) : Stands (some c) (some (.served (t, k) v))

section

variable {stage : Option (Atomic.Stage (RequestType × KeyId) (Option AccessManagerError))}
  {rest : ProtocolClient.Method (Option SocketAddr)}

theorem Stands.of_idle (h : Stands (some c) stage) (hidle : c.running = none) : stage = none := by
  cases h with
  | idle => rfl
  | invoked _ t k rest hrunning => cases hidle.symm.trans hrunning
  | served _ t k v rest hrunning => cases hidle.symm.trans hrunning

theorem Stands.of_unread (h : Stands (some c) stage) (hrunning : c.running = some (t, k, rest))
    (hunread : unread c = true) : stage = some (.invoked (t, k)) := by
  cases h with
  | idle _ hidle => cases hidle.symm.trans hrunning
  | invoked _ t' k' rest' hrunning' =>
      cases hrunning.symm.trans hrunning'
      rfl
  | served _ t' k' v rest' hrunning' hread => cases hunread.symm.trans hread

theorem Stands.of_read (h : Stands (some c) stage) (hrunning : c.running = some (t, k, rest))
    (hread : unread c = false) : ∃ v, stage = some (.served (t, k) v) ∧ Told c v := by
  cases h with
  | idle _ hidle => cases hidle.symm.trans hrunning
  | invoked _ t' k' rest' hrunning' hunread => cases hunread.symm.trans hread
  | served _ t' k' v rest' hrunning' _ htold =>
      cases hrunning.symm.trans hrunning'
      exact ⟨v, rfl, htold⟩

end

/-- All that a client is told unasked are grants. -/
theorem grants_of_told {ts : List RequestType} {responses : List RegistryResponse}
    {response : RegistryResponse} (h : List.Forall₂ (Grants k) ts responses)
    (hresponse : response ∈ responses) : ∃ t, Grants k t response := by
  induction h with
  | nil => cases hresponse
  | cons hgrants hrest ih =>
      rcases List.mem_cons.1 hresponse with rfl | hresponse
      · exact ⟨_, hgrants⟩
      · exact ih hresponse

/-- A step that is not of the client's own call leaves it where it is. -/
theorem Turn.stands {s s' : Session} {i : Input} {q : ProcId} {o o' : Option Client}
    (h : Turn s s' i q o o') (hadvances : advances q s i = false) (hstarts : starts q s i = false)
    (hprimary : s.registry.AwaitsPrimary → o = none)
    {stage : Option (Atomic.Stage (RequestType × KeyId) (Option AccessManagerError))}
    (hstands : Stands o stage) : Stands o' stage := by
  cases h with
  | stays => exact hstands
  | connects c hholds hidle =>
      cases hstands with
      | nobody => exact .idle c hidle
  | primary o hnone =>
      obtain rfl : o = none := hnone.elim id hprimary
      exact hstands
  | begins c t k hi hholds hidle _ hbegins => exact absurd (hbegins.symm.trans hstarts) (by simp)
  | proceeds c b r hproceeds hholds hb =>
      obtain rfl : b = false := hb.symm.trans hadvances
      cases hproceeds <;> exact hstands
  | answered c t k response hrunning hinbox houtbox hgains hmoves =>
      exact absurd (hmoves.symm.trans hadvances) (by simp)
  | observes c k responses hobserves =>
      obtain ⟨granted, -, hgrants, -⟩ := hobserves.told
      cases hstands with
      | idle _ hrunning => exact .idle _ hrunning
      | invoked _ t k' rest hrunning hunread => exact .invoked _ t k' rest hrunning hunread
      | served _ t k' v rest hrunning hread htold =>
          refine .served _ t k' v rest hrunning hread ?_
          cases v with
          | some e => exact List.mem_append_left _ htold
          | none =>
              -- what the client is told of is a grant
              intro text hmem
              rcases List.mem_append.1 hmem with hmem | hmem
              · exact htold text hmem
              · obtain ⟨response, hresponse, heq⟩ := List.mem_map.1 hmem
                obtain ⟨t', hgrant⟩ := grants_of_told hgrants hresponse
                cases hgrant <;> simp [said] at heq

/-! ## The client goes on -/

/-- Whoever has access is admitted. -/
theorem admitted_of_holds {o : Option Outstanding}
    (ho : r.accessManager.keyStates k = o.map Outstanding.keyState) (h : holds r p k = some t) :
    Admitted p t o := by
  rintro m rfl
  unfold holds at h
  rw [ho] at h
  cases o with
  | none => cases h
  | some o =>
      obtain ⟨c, es⟩ := o
      refine ⟨c, es, rfl, ?_⟩
      rw [Option.map_some, Outstanding.keyState, accessOf_ofLock] at h
      obtain ⟨m', hm', hrequest⟩ := Option.map_eq_some_iff.1 h
      rw [requestOf_injective hrequest] at hm'
      exact (FairLock.ofRequests_mode es p m).1 hm'

/-- A call that is not refused returns with what the table lets it return. -/
theorem returns_accepted {o : Option Outstanding} {response : RegistryResponse}
    (ho : r.accessManager.keyStates k = o.map Outstanding.keyState) (hfinal : Final t k response)
    (ha : Grants k t response → holds r p k = some t) (hno : ∀ text, response ≠ .error text) :
    (outcome t k response).map Option.isSome = .ok (t == .read) ∧ Admitted p t o := by
  cases hfinal with
  | refused text => exact absurd rfl (hno text)
  | done ht =>
      refine ⟨?_, ?_⟩
      · cases t with
        | create | delete | release => simp [outcome, Except.map]
        | read => exact absurd rfl ht.1
        | write => exact absurd rfl ht.2
      · rintro m rfl
        cases m with
        | read => exact absurd rfl ht.1
        | write => exact absurd rfl ht.2
  | granted _ hgrants =>
      refine ⟨?_, admitted_of_holds ho (ha hgrants)⟩
      cases hgrants <;> rfl

/-- The table as it stands in a session. -/
abbrev TableState := Atomic.State ProcId (RequestType × KeyId) (KeyId → Option Outstanding)
  (Option AccessManagerError)

variable {a : TableState}

/-- **The next socket operation of a client** is nothing to the table, or it is the return of its
call. -/
theorem Proceeds.accepted {b : Bool} {next : Client × List Event}
    (h : Proceeds p (waits r p) (holds r p) c b next)
    (hkeys : ∀ k, r.accessManager.keyStates k = (a.object k).map Outstanding.keyState)
    (hstands : Stands (some c) (a.calls p)) :
    ∃ stage, Atomic.Accepts keyTable a (next.2.filterMap callEvent) (a.setCall p stage) ∧
      Stands (some next.1) stage := by
  have hsame : Atomic.Accepts keyTable a [] (a.setCall p (a.calls p)) := by
    rw [Atomic.State.setCall, Function.update_eq_self]
    exact .nil a
  cases h with
  | idle | unread | blocked => exact ⟨_, hsame, hstands⟩
  | writes t k hrunning hinbox houtbox =>
      refine ⟨_, hsame, ?_⟩
      rw [hstands.of_unread hrunning (unread_starting hrunning)]
      exact .invoked _ t k _ rfl (unread_confirm rfl)
  | confirms t k hrunning hinbox houtbox =>
      refine ⟨_, hsame, ?_⟩
      obtain ⟨v, hcall, htold⟩ :=
        hstands.of_read hrunning (by rw [unread_confirm hrunning, houtbox]; rfl)
      obtain ⟨cont, hsettle, -⟩ := ProtocolClient.settle_receives t k
      rw [hcall]
      refine .served _ t k v _ rfl ?_ ?_
      · rw [unread_receive (congrArg (fun rest => some (t, k, rest)) hsettle), houtbox]
        rfl
      · cases v <;> exact htold
  | told m k inbox hrunning hinbox houtbox hgrant =>
      refine ⟨_, hsame, ?_⟩
      obtain ⟨cont, hsettle, -⟩ := ProtocolClient.settle_receives (requestOf m) k
      obtain ⟨cont', hawait⟩ := ProtocolClient.awaitGrant_calls m k
      obtain ⟨v, hcall, htold⟩ := hstands.of_read hrunning
        (by rw [unread_receive (hrunning.trans (by rw [hsettle])), houtbox]; rfl)
      rw [hcall]
      refine .served _ _ k v _ rfl ?_ ?_
      · rw [unread_receive (congrArg (fun rest => some (requestOf m, k, rest)) hawait), houtbox]
        rfl
      -- the `Wait` that has been received is no verdict
      · cases v with
        | none =>
            exact fun text hmem => htold text (by rw [hinbox]; exact List.mem_cons_of_mem _ hmem)
        | some e =>
            have hmem : said (.error (RegistryServerError.accessManager e).text) ∈ c.inbox := htold
            rw [hinbox] at hmem
            exact (List.mem_cons.1 hmem).resolve_left (by simp [said])
  | returns t k response cont hrunning hinbox houtbox hfinal ha =>
      refine ⟨none, ?_, .idle _ rfl⟩
      obtain ⟨v, hcall, htold⟩ :=
        hstands.of_read hrunning (by rw [unread_receive hrunning, houtbox]; rfl)
      refine .single (.returns a p (t, k) v _ hcall ?_)
      cases v with
      | none =>
          refine returns_accepted (hkeys k) hfinal ha fun text heq => htold text ?_
          rw [hinbox, heq]
          exact List.mem_singleton_self _
      | some e =>
          have hmem : said (.error (RegistryServerError.accessManager e).text) ∈ c.inbox := htold
          rw [hinbox, List.mem_singleton] at hmem
          obtain rfl : response = .error (RegistryServerError.accessManager e).text := by
            simpa [said] using hmem.symm
          rfl

/-! ## Sessions -/

/-- The registry stores what the table has, and every call is where the table has it. -/
structure Matches (s : Session) (a : TableState) : Prop where
  promising : Promising s
  keys : ∀ k, s.registry.accessManager.keyStates k = (a.object k).map Outstanding.keyState
  calls : ∀ p, Stands (s.clients p) (a.calls p)

variable {s : Session}

/-- The registry does not take a client for the primary registry. -/
theorem Matches.primary (h : Matches s a) (hawaits : s.registry.AwaitsPrimary) (p : ProcId) :
    s.clients p = none := by
  cases hc : s.clients p with
  | none => rfl
  | some c =>
      obtain ⟨hlow, hhigh⟩ := h.promising.invariant.tokens p c hc
      rw [h.promising.populated.fresh hawaits] at hhigh
      exact absurd (Nat.le_trans hlow hhigh) (by decide)

/-- Whoever does not move stays where it is. -/
theorem Matches.stands (h : Matches s a) {i : Input} {p : ProcId}
    (hadvances : advances p s i = false) (hstarts : starts p s i = false) :
    Stands ((s.step i).1.clients p) (a.calls p) :=
  (h.promising.invariant.turn i p).stands hadvances hstarts (fun hawaits => h.primary hawaits p)
    (h.calls p)

/-- What the step shows of the calls, the table allows. -/
def Allowed (s : Session) (a : TableState) (i : Input) : Prop :=
  ∃ b, Atomic.Accepts keyTable a ((s.step i).2.filterMap callEvent) b ∧ Matches (s.step i).1 b

/-- What is sent is nothing to the table. -/
theorem callEvent_sends (written : List (TcpStream × Message)) :
    (written.map fun w => Event.sent w.1 w.2).filterMap callEvent = [] := by
  rw [List.filterMap_map]
  exact List.filterMap_eq_nil_iff.2 fun w hw => rfl

theorem Matches.idle (h : Matches s a) {i : Input} (hidle : s.step i = (s, [])) :
    Allowed s a i := by
  unfold Allowed
  rw [hidle]
  exact ⟨a, .nil a, h⟩

theorem Matches.connect (h : Matches s a) (addr : SocketAddr) : Allowed s a (.connect addr) := by
  have hevents : (s.step (.connect addr)).2.filterMap callEvent = [] := callEvent_sends _
  refine ⟨a, by rw [hevents]; exact .nil a, h.promising.step _, ?_, fun p => h.stands rfl rfl⟩
  have hstep := step_connection s.registry .ascending s.registry.nextToken addr
  have hregistry : (s.step (.connect addr)).1.registry
      = (RegistryServer.step Serde.direct s.registry
        (.connection (Env.calm .ascending) s.registry.nextToken addr)).1 := rfl
  intro k
  rw [hregistry, ← h.keys k]
  split at hstep <;> rw [hstep.1]

theorem Matches.call (h : Matches s a) (p : ProcId) (t : RequestType) (k : KeyId) :
    Allowed s a (.call p t k) := by
  by_cases hstarts : starts p s (.call p t k) = true
  · simp only [starts, beq_self_eq_true, Bool.true_and, Option.any_eq_true,
      Option.isNone_iff_eq_none] at hstarts
    obtain ⟨c, hc, hidle⟩ := hstarts
    have hnone : a.calls p = none := by
      have hstands := h.calls p
      rw [hc] at hstands
      exact hstands.of_idle hidle
    have hnext := h.promising.step (.call p t k)
    unfold Allowed
    dsimp only [Session.step] at hnext ⊢
    rw [hc] at hnext ⊢
    dsimp only at hnext ⊢
    rw [if_pos (by rw [hidle]; rfl)] at hnext ⊢
    refine ⟨_, .single (.invokes a p (t, k) hnone), hnext, h.keys, fun q => ?_⟩
    rw [setClient_clients, Atomic.State.setCall_calls]
    by_cases hq : q = p
    · rw [hq, Function.update_self, Function.update_self]
      exact .invoked _ t k _ rfl (unread_starting (c := begin c t k) rfl)
    · rw [Function.update_of_ne hq, Function.update_of_ne hq]
      exact h.calls q
  · exact h.idle (step_call_idle hstarts)

theorem Matches.proceed (h : Matches s a) (p : ProcId) : Allowed s a (.proceed p) := by
  cases hc : s.clients p with
  | none => exact h.idle (by dsimp only [Session.step]; rw [hc])
  | some c =>
      have hstands := h.calls p
      rw [hc] at hstands
      obtain ⟨stage, haccepts, hstage⟩ :=
        (h.promising.invariant.clients p c hc).proceeds.accepted h.keys hstands
      have hnext := h.promising.step (.proceed p)
      unfold Allowed
      dsimp only [Session.step] at hnext ⊢
      rw [hc] at hnext ⊢
      dsimp only at hnext ⊢
      refine ⟨_, haccepts, hnext, h.keys, fun q => ?_⟩
      rw [setClient_clients, Atomic.State.setCall_calls]
      by_cases hq : q = p
      · rw [hq, Function.update_self, Function.update_self]
        exact hstage
      · rw [Function.update_of_ne hq, Function.update_of_ne hq]
        exact h.calls q

/-- **The request of a client takes effect** when the registry reads it. -/
theorem Matches.serve (h : Matches s a) (p : ProcId) (iter : SetIter ProcId) :
    Allowed s a (.serve p iter) := by
  by_cases hreads : advances p s (.serve p iter) = true
  · simp only [advances, beq_self_eq_true, Bool.true_and, Bool.and_eq_true, bne_iff_ne,
      Option.any_eq_true, Bool.not_eq_true', List.isEmpty_eq_false_iff] at hreads
    obtain ⟨hbackup, c, hc, houtbox⟩ := hreads
    obtain ⟨message, outbox, houtbox⟩ := List.exists_cons_of_ne_nil houtbox
    have hinv := h.promising.invariant
    have hgood := hinv.clients p c hc
    obtain ⟨t, k, rfl, rfl, hinbox, hrunning, he⟩ := hgood.reads houtbox
    obtain ⟨out, result, messages, o', heffect, hanswer, hserves⟩ :=
      hinv.regular.serve (hinv.tokens p c hc) hbackup iter t k
    have hcall : a.calls p = some (.invoked (t, k)) := by
      have hstands := h.calls p
      rw [hc] at hstands
      exact hstands.of_unread hrunning (by rw [unread_confirm hrunning, houtbox]; rfl)
    have hrequest : c.outbox = [.registry (.request p t k)] := by
      rw [houtbox, ProtocolClient.request, hgood.id]
    obtain ⟨hkeys, hclient⟩ := step_served hc hrequest hinbox he hbackup iter hserves
    have hevents : (s.step (.serve p iter)).2.filterMap callEvent = [.served p (t, k)] := by
      rw [step_serve hc hrequest hbackup iter]
      exact congrArg (List.cons _) (callEvent_sends _)
    rw [h.keys k] at heffect
    obtain ⟨o₁, v, htable, rfl, hverdict⟩ := table_serves heffect hanswer hserves.known
    unfold Allowed
    rw [hevents]
    refine ⟨_, .single (.serves a p (t, k) hcall), h.promising.step _, fun k' => ?_, fun q => ?_⟩
    · rw [htable, hkeys, Atomic.State.setCall_object]
      dsimp only
      by_cases hk : k' = k
      · rw [hk, Function.update_self, Function.update_self]
      · rw [Function.update_of_ne hk, Function.update_of_ne hk, h.keys k']
    · rw [htable, Atomic.State.setCall_calls]
      by_cases hq : q = p
      · rw [hq, Function.update_self, hclient]
        exact .served _ t k v _ hrunning (unread_confirm (c := { c with
          inbox := [said (spoken result)], outbox := [] }) hrunning) (told_of_tells hverdict rfl)
      · rw [Function.update_of_ne hq]
        exact h.stands (by simp [advances, Ne.symm hq]) rfl
  · exact h.idle (step_serve_idle hreads)

theorem Matches.step (h : Matches s a) (i : Input) : Allowed s a i := by
  cases i with
  | connect addr => exact h.connect addr
  | call p t k => exact h.call p t k
  | proceed p => exact h.proceed p
  | serve p iter => exact h.serve p iter

theorem run_matches (secondaryServer : Option (SocketAddr × TcpStream)) (inputs : List Input) :
    let r := (machine secondaryServer).run inputs
    ∃ a, Atomic.Accepts keyTable keyTable.init (r.2.filterMap callEvent) a ∧ Matches r.1 a :=
  Atomic.run_accepted callEvent ⟨run_promising secondaryServer [], fun _ => rfl, fun _ => .nobody⟩
    (fun _ _ i h => h.step i) inputs

/-- **Sessions are linearizable.** Whatever the interleaving, each call of each client takes
effect at one moment between its start and its return, and returns what the table of keys lets it
return; and the registry stores what the table has when it has served the requests one at a time,
in the order in which the registry has read them. -/
theorem linearizable (secondaryServer : Option (SocketAddr × TcpStream)) (inputs : List Input) :
    let r := (machine secondaryServer).run inputs
    (∃ a, Atomic.Accepts keyTable keyTable.init (r.2.filterMap callEvent) a) ∧
      ∀ k, r.1.registry.accessManager.keyStates k = (keyTable.serveAll
        (Atomic.effects (r.2.filterMap callEvent)) keyTable.start k).map Outstanding.keyState := by
  obtain ⟨a, haccepts, hmatches⟩ := run_matches secondaryServer inputs
  refine ⟨⟨a, haccepts⟩, fun k => ?_⟩
  rw [hmatches.keys k, haccepts.object]
  rfl

end Session

/-! ## Sessions on bytes -/

namespace ByteSession

open Session (keyTable callEvent)

/-- What the clients see of the calls is what the log of the calls has. -/
theorem callEvent_seen (log : List Session.Event) :
    (log.filterMap callEvent).filter Atomic.visible = (log.filterMap seen).filterMap callEvent := by
  rw [List.filter_filterMap, List.filterMap_filterMap]
  congr 1
  funext e
  cases e with
  | called | returned | sent => rfl
  | asked p message =>
      cases message with
      | registry message => cases message <;> rfl
      | data => rfl

/-- **So are sessions on bytes**, however the bytes to the clients are cut into pieces: what the
clients see of their calls is what clients of the table may see. -/
theorem bytes_linearizable (secondaryServer : Option (SocketAddr × TcpStream))
    (inputs : List Input)
    (hwhole : (machine secondaryServer).Along Whole (machine secondaryServer).start inputs) :
    keyTable.Explains (((machine secondaryServer).run inputs).2.filterMap callEvent) := by
  obtain ⟨inputs', -, hsame⟩ := run_carries secondaryServer inputs hwhole
  obtain ⟨a, haccepts, -⟩ := Session.run_matches secondaryServer inputs'
  exact ⟨_, a, haccepts, by rw [callEvent_seen, hsame]⟩

theorem bytes_linearizable_pieces :
    keyTable.Explains (((machine none).run pieces).2.filterMap callEvent) :=
  bytes_linearizable none pieces (by decide +kernel)

end ByteSession

end Soros
