import Soros.AccessManager.History

set_option autoImplicit false

/-! # Calls that fail

`release` strikes off the holder before it lets waiters in, and it lets them in one by one, so
an error halfway would leave a key half granted. There is none: the only call in the loop that
can fail sends on the channel, whose other end the manager keeps. A call that fails has changed
nothing, but that it may have joined a queue (`failed_call_atomic`). -/

namespace Soros

open RwLock

namespace AccessManager

/-- From `m` to `m'` one entry has joined the queue of the key `k`, at its end. -/
def Joins (m m' : AccessManager) (p : ProcId) (k : KeyId) (t : RequestType) : Prop :=
  ∃ ks, m.keyStates k = some ks ∧
    m' = m.setKeyState k { ks with pendingRequest := ks.pendingRequest ++ [(p, t)] }

/-- Nobody waits for the key while nobody holds it. -/
def Served (m : AccessManager) (k : KeyId) : Prop :=
  ∀ ks, m.keyStates k = some ks → ks.writer = none → ks.readers = ∅ → ks.pendingRequest = []

/-- A valid manager lets nobody wait for a key that is free. -/
theorem Valid.served {m : AccessManager} (hv : m.Valid) (k : KeyId) : m.Served k := by
  intro ks hk hwriter hreaders
  obtain ⟨l, c, rfl⟩ := hv.fair k ks hk
  have hqueue : l.queue = [] := FairLock.queue_of_idle ⟨hreaders, hwriter⟩
  rw [KeyState.ofLock_pendingRequest, hqueue, List.map_nil]

/-- The entry that `ask` leaves in the queue. -/
theorem joins_ask {m : AccessManager} {k : KeyId} {l : FairLock ProcId} {c p : ProcId} {mode : Mode}
    (hk : m.keyStates k = some (KeyState.ofLock l.toLock c)) (hask : (l.ask p mode).1 = false) :
    m.Joins (m.after k [] (some (KeyState.ofLock (l.ask p mode).2.toLock c))) p k
      (requestOf mode) := by
  refine ⟨_, hk, ?_⟩
  rw [FairLock.ask_waits hask]
  simp [after, setKeyState, KeyState.ofLock, pending]

/-- How a call that fails leaves the manager. -/
def Atomic (m : AccessManager) (c : Call)
    (r : Outcome AccessManagerError (Option ProcId) × AccessManager) : Prop :=
  match r.1 with
  | .ok _ => True
  | .err (.requestAccess p k) => ∃ mode, c = Call.ask p k mode ∧ m.Joins r.2 p k (requestOf mode)
  | .err (.sendError _) => False
  | .err _ => r.2 = m
  | .panic _ => False
  | .exit _ => False

theorem Effect.atomic {m : AccessManager} {c : Call}
    {out : Outcome AccessManagerError (Option ProcId)} {messages : List AccessGranted}
    {o' : Option KeyState} (h : Effect c (m.keyStates c.key) out messages o') :
    Atomic m c (out, m.after c.key messages o') := by
  generalize ho : m.keyStates c.key = o at h
  cases h with
  | create | delete | read | write | release => trivial
  | missing | present | busy | unheld => exact after_self ho
  | wait k l creator p mode hask =>
      refine ⟨mode, rfl, ?_⟩
      have hkey : (Call.ask p k mode).key = k := by cases mode <;> rfl
      rw [hkey] at ho ⊢
      exact joins_ask ho hask

/-- **Calls that fail are atomic.** In every run, a call that fails leaves the key states and the
channel as they were; one that fails with `RequestAccess` has put its caller at the end of the
queue and changed nothing else. No call fails with `SendError` or panics, and no call leaves a
key free that somebody waits for. -/
theorem failed_call_atomic (inputs : List Input) (iter : SetIter ProcId) (c : Call) :
    let m := (machine.run inputs).1
    Atomic m c ((c.invoke iter).run m) ∧ ∀ k, ((c.invoke iter).run m).2.Served k := by
  intro m
  have hv : m.Valid := run_valid inputs
  constructor
  · obtain ⟨out, messages, o', heffect, hrun⟩ := invoke_effect hv iter c
    rw [hrun]
    exact heffect.atomic
  · intro k
    exact (step_valid hv (.call iter c)).served k

end AccessManager

end Soros
