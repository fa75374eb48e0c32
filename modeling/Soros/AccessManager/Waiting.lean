import Soros.AccessManager.History

set_option autoImplicit false

/-! # Nobody waits without a reason

`read` looks at the front of the queue only. That is enough, because the front of the queue of
a key without a writer is never a read: a read that waits has the writer or an earlier write in
front of it, and a write waits on a key that somebody holds. -/

namespace Soros

open RwLock

/-- What `read` asks of the queue: is the first queued request a write? -/
def KeyState.requestingWriter (ks : KeyState) : Bool :=
  ks.pendingRequest.head?.any fun req => req.2 == .write

namespace AccessManager

/-- A queued read of a lock is a queued read of the key, and what is in front of it stays in
front of it. -/
theorem queue_split {q : List (ProcId × Mode)} {before after : List (ProcId × RequestType)}
    {p : ProcId} (h : q.map pending = before ++ (p, .read) :: after) :
    ∃ before' after', q = before' ++ (p, .read) :: after' ∧ before'.map pending = before := by
  obtain ⟨before', rest, rfl, hbefore, hrest⟩ := List.map_eq_append_iff.1 h
  obtain ⟨⟨p', m⟩, after', rfl, hp, -⟩ := List.map_eq_cons_iff.1 hrest
  have hm : m = .read := requestOf_injective (congrArg Prod.snd hp)
  have hp' : p' = p := congrArg Prod.fst hp
  subst hm hp'
  exact ⟨before', after', rfl, hbefore⟩

/-- Without a writer, a queue is empty or a write is at its front. -/
theorem queue_of_no_writer {l : FairLock ProcId} (hw : l.writer = none) (c : ProcId) :
    (KeyState.ofLock l.toLock c).pendingRequest = [] ∨
    ∃ p rest, (KeyState.ofLock l.toLock c).pendingRequest = (p, .write) :: rest := by
  cases hq : l.queue with
  | nil => exact Or.inl (by simp [hq])
  | cons e q =>
      have hwrite := FairLock.front_of_no_writer hw hq
      exact Or.inr ⟨e.1, q.map pending, by simp [hq, pending, hwrite, requestOf]⟩

/-- **Nobody waits without a reason**, and without a writer the front of the queue tells all
that there is to know of it. -/
theorem waiting_reason (inputs : List Input) (k : KeyId) (ks : KeyState)
    (hk : (machine.run inputs).1.keyStates k = some ks) :
    (∀ before p after, ks.pendingRequest = before ++ (p, .read) :: after →
      ks.writer ≠ none ∨ ∃ q, (q, .write) ∈ before) ∧
    (∀ p, (p, .write) ∈ ks.pendingRequest → ks.readers ≠ ∅ ∨ ks.writer ≠ none) ∧
    (ks.writer = none →
      (ks.requestingWriter = true ↔ ∃ p, (p, .write) ∈ ks.pendingRequest) ∧
      (ks.requestingWriter = true ↔ ks.pendingRequest ≠ [])) := by
  have hv : (machine.run inputs).1.Valid := run_valid inputs
  obtain ⟨l, c, rfl⟩ := hv.fair k ks hk
  refine ⟨fun before p after hq => ?_, fun p hp => ?_, fun hw => ?_⟩
  · obtain ⟨before', after', hq', rfl⟩ := queue_split hq
    refine (FairLock.read_waits hq').imp_right ?_
    rintro ⟨q, hq⟩
    exact ⟨q, List.mem_map_of_mem (f := pending) hq⟩
  · by_contra hno
    push Not at hno
    have hidle : l.Idle := hno
    rw [KeyState.ofLock_pendingRequest, FairLock.queue_of_idle hidle] at hp
    cases hp
  · unfold KeyState.requestingWriter
    rcases queue_of_no_writer hw c with hq | ⟨p, rest, hq⟩
    · rw [hq]
      simp
    · rw [hq]
      exact ⟨⟨fun _ => ⟨p, List.mem_cons_self⟩, fun _ => rfl⟩, ⟨fun _ => by simp, fun _ => rfl⟩⟩

/-- A writer, and behind it a read, a write and a read. -/
def queuedCalls : List Input :=
  [.call .ascending (.create 1 0), .call .ascending (.write 1 0), .call .ascending (.read 2 0),
    .call .ascending (.write 3 0), .call .ascending (.read 4 0)]

/-- The last read waits for the writer, and for the write in front of it. -/
theorem waiting_reason_queuedCalls :
    (machine.run queuedCalls).1.keyStates 0
      = some ⟨[(2, .read), (3, .write), (4, .read)], ∅, some 1, 1⟩ ∧
    ((some 1 : Option ProcId) ≠ none ∨
      ∃ q, (q, RequestType.write) ∈ [((2 : ProcId), RequestType.read), (3, .write)]) :=
  ⟨by decide, (waiting_reason queuedCalls 0 ⟨[(2, .read), (3, .write), (4, .read)], ∅, some 1, 1⟩
    (by decide)).1 [(2, .read), (3, .write)] 4 [] rfl⟩

end AccessManager

end Soros
