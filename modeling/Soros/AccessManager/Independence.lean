import Soros.AccessManager.History

set_option autoImplicit false

/-! # Keys do not interfere

One map and one channel serve all keys, but what happens to a key, what the calls on it return
and what is sent about it depend on the calls on that key alone: the calls on other keys can be
left out (`keyView_filter`), or moved. -/

namespace Soros

namespace AccessManager

/-- A call and what it returned. -/
structure Returned where
  call : Call
  outcome : Outcome AccessManagerError (Option ProcId)

/-- The manager as a machine that tells what each call returns. The readers of a key are always
walked in the same way, and nobody takes messages out of the channel. -/
def caller (iter : SetIter ProcId) : IOMachine AccessManager Call Returned where
  start := new
  step m c := (((c.invoke iter).run m).2, [⟨c, ((c.invoke iter).run m).1⟩])

/-- The messages about a key in the channel, oldest first. -/
def messagesOn (k : KeyId) (m : AccessManager) : List AccessGranted :=
  m.accessGranted.buffer.filter fun a => a.2.1 == k

/-- The call is one on the key `k`. -/
def Call.on (k : KeyId) (c : Call) : Bool := c.key == k

/-- All that can be seen of a key at the end of a run: its state, what the calls on it have
returned and what has been sent about it. -/
structure KeyView where
  state : Option KeyState
  results : List Returned
  messages : List AccessGranted

def keyView (k : KeyId) (r : AccessManager × List Returned) : KeyView where
  state := r.1.keyStates k
  results := r.2.filter fun e => e.call.on k
  messages := messagesOn k r.1

/-- The managers of two runs that show the same of the key `k`. -/
structure SameOn (k : KeyId) (m m' : AccessManager) : Prop where
  valid : m.Valid
  valid' : m'.Valid
  state : m.keyStates k = m'.keyStates k
  messages : messagesOn k m = messagesOn k m'

/-- A call sends messages about its own key only. -/
theorem Effect.messages_key {c : Call} {o o' : Option KeyState}
    {out : Outcome AccessManagerError (Option ProcId)} {messages : List AccessGranted}
    (h : Effect c o out messages o') : ∀ a ∈ messages, a.2.1 = c.key := by
  cases h with
  | release k l c p =>
      intro a ha
      obtain ⟨e, -, rfl⟩ := List.mem_map.1 ha
      rfl
  | missing | present | create | busy | delete | read | write | wait | unheld =>
      intro a ha
      cases ha

theorem messagesOn_after (k k' : KeyId) (m : AccessManager) (messages : List AccessGranted)
    (o : Option KeyState) : messagesOn k (m.after k' messages o)
      = messagesOn k m ++ messages.filter fun a => a.2.1 == k := by
  simp [messagesOn, after, sent]

theorem after_valid {m : AccessManager} (hv : m.Valid) (iter : SetIter ProcId) (c : Call) :
    ((c.invoke iter).run m).2.Valid := step_valid hv (.call iter c)

/-- A call on another key shows nothing of `k`. -/
theorem SameOn.off {k : KeyId} {m m' : AccessManager} (h : SameOn k m m') (iter : SetIter ProcId)
    {c : Call} (hoff : c.on k = false) : SameOn k ((c.invoke iter).run m).2 m' := by
  have hne : k ≠ c.key := by
    rintro rfl
    simp [Call.on] at hoff
  have hvalid := after_valid h.valid iter c
  obtain ⟨out, messages, o', heffect, hrun⟩ := invoke_effect h.valid iter c
  rw [hrun] at hvalid ⊢
  have hnone : (messages.filter fun a => a.2.1 == k) = [] := by
    refine List.filter_eq_nil_iff.2 fun a ha => ?_
    simpa [heffect.messages_key a ha] using Ne.symm hne
  refine ⟨hvalid, h.valid', ?_, ?_⟩
  · rw [← h.state]
    exact Function.update_of_ne hne _ _
  · rw [messagesOn_after, hnone, List.append_nil]
    exact h.messages

/-- A call on `k` returns the same and shows the same. -/
theorem SameOn.on {k : KeyId} {m m' : AccessManager} (h : SameOn k m m') (iter : SetIter ProcId)
    {c : Call} (hon : c.on k = true) :
    SameOn k ((c.invoke iter).run m).2 ((c.invoke iter).run m').2 ∧
    ((c.invoke iter).run m).1 = ((c.invoke iter).run m').1 := by
  obtain rfl : c.key = k := by simpa [Call.on] using hon
  have hvalid := after_valid h.valid iter c
  have hvalid' := after_valid h.valid' iter c
  obtain ⟨messages, o', hmakes⟩ := invoke_spec (h.valid.fair c.key) c
  obtain ⟨out, -, hrun⟩ := hmakes iter
  have hrun' := hrun m' h.valid'.connected h.state.symm
  rw [hrun m h.valid.connected rfl] at hvalid ⊢
  rw [hrun'] at hvalid' ⊢
  refine ⟨⟨hvalid, hvalid', ?_, ?_⟩, rfl⟩
  · simp [after]
  · rw [messagesOn_after, messagesOn_after, h.messages]

/-- The calls on other keys can be left out of a run. -/
theorem keyView_filter (iter : SetIter ProcId) (calls : List Call) (k : KeyId) :
    keyView k ((caller iter).run calls) = keyView k ((caller iter).run (calls.filter (Call.on k))) := by
  have hnew : SameOn k (caller iter).start (caller iter).start :=
    ⟨valid_new, valid_new, rfl, rfl⟩
  have hoff : ∀ m m' c, SameOn k m m' → c.on k = false →
      SameOn k ((caller iter).step m c).1 m' ∧
      ((caller iter).step m c).2.filter (fun e => e.call.on k) = [] :=
    fun m m' c h hoff => ⟨h.off iter hoff, List.filter_cons_of_neg (by simp [hoff])⟩
  have hon : ∀ m m' c, SameOn k m m' → c.on k = true →
      SameOn k ((caller iter).step m c).1 ((caller iter).step m' c).1 ∧
      ((caller iter).step m c).2.filter (fun e => e.call.on k)
        = ((caller iter).step m' c).2.filter (fun e => e.call.on k) := by
    intro m m' c h hon
    obtain ⟨hsame, hout⟩ := h.on iter hon
    refine ⟨hsame, ?_⟩
    simp only [caller, hout]
  obtain ⟨hsame, hresults⟩ := IOMachine.exec_unwinding (Call.on k) _ hoff hon hnew calls
  simp only [keyView, IOMachine.run, hsame.state, hresults, hsame.messages]

/-- **Keys do not interfere.** A run shows of each key what the calls on that key alone show of
it; so two runs with the same calls on each key, in the same order, show the same of each. -/
theorem keys_independent (iter : SetIter ProcId) (calls : List Call) :
    (∀ k, keyView k ((caller iter).run calls)
      = keyView k ((caller iter).run (calls.filter (Call.on k)))) ∧
    ∀ calls' : List Call, (∀ k, calls'.filter (Call.on k) = calls.filter (Call.on k)) →
      ∀ k, keyView k ((caller iter).run calls') = keyView k ((caller iter).run calls) := by
  refine ⟨fun k => keyView_filter iter calls k, fun calls' h k => ?_⟩
  rw [keyView_filter iter calls' k, h k, ← keyView_filter iter calls k]

end AccessManager

end Soros
