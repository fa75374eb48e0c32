import Soros.AccessManager.Refinement
import Soros.Lib.Machine

set_option autoImplicit false

/-! # Runs of the access manager and what they leave behind

A run is any sequence of calls on a fresh manager, interleaved at will with reads of the
receiving end of its channel. Each call leaves events behind: the request it made, the access
it was answered with at once, the release it completed and the messages it put on the
channel, the release before the messages it caused.

`KeyMove` lists everything a call can do to its key, with the events it leaves. `call_step`
shows that every call is such a move and touches nothing else; `run_key` turns that into
induction over a run as one key sees it, which is how the properties of runs are proved. -/

namespace Soros

open RwLock

namespace AccessManager

/-! ## Calls and events -/

inductive Call where
  | create (procId : ProcId) (keyId : KeyId)
  | delete (keyId : KeyId)
  | read (procId : ProcId) (keyId : KeyId)
  | write (procId : ProcId) (keyId : KeyId)
  | release (procId : ProcId) (keyId : KeyId)
  deriving DecidableEq, Repr

def Call.key : Call → KeyId
  | .create _ k | .delete k | .read _ k | .write _ k | .release _ k => k

/-- The method a call runs; `read` alone has a result, the id of a holder. -/
def Call.invoke (iter : SetIter ProcId) : Call → Method (Option ProcId)
  | .create p k => do AccessManager.create p k; pure none
  | .delete k => do AccessManager.delete k; pure none
  | .read p k => do let holder ← AccessManager.read iter p k; pure (some holder)
  | .write p k => do AccessManager.write p k; pure none
  | .release p k => do AccessManager.release iter p k; pure none

/-- One step of a run: a call, with the order in which it walks the readers, or the owner of
the receiving end taking out the messages. -/
inductive Input where
  | call (iter : SetIter ProcId) (c : Call)
  | tryIter

inductive Event where
  | created (procId : ProcId) (keyId : KeyId)
  | deleted (keyId : KeyId)
  /-- A `read` or `write` that was not rejected with `KeyNotFound`. -/
  | requested (procId : ProcId) (keyId : KeyId) (requestType : RequestType)
  /-- An immediate `Ok` of `read`, with the holder it names, or of `write`. -/
  | answered (procId : ProcId) (keyId : KeyId) (requestType : RequestType)
      (holder : Option ProcId)
  /-- A message on the `access_granted` channel. -/
  | notified (message : AccessGranted)
  /-- An `Ok` of `release`. -/
  | released (procId : ProcId) (keyId : KeyId)
  deriving DecidableEq, Repr

def Event.key : Event → KeyId
  | .created _ k | .deleted k | .requested _ k _ | .answered _ k _ _ | .released _ k => k
  | .notified (_, k, _, _) => k

/-- The access an event grants: at once or through the channel. -/
def Event.grant? : Event → Option (ProcId × RequestType)
  | .answered p _ t _ => some (p, t)
  | .notified (p, _, t, _) => some (p, t)
  | _ => none

/-- The request a call leaves behind. -/
def Call.asked : Call → Outcome AccessManagerError (Option ProcId) → List Event
  | .read _ _, .err (.keyNotFound _) => []
  | .write _ _, .err (.keyNotFound _) => []
  | .read p k, _ => [.requested p k .read]
  | .write p k, _ => [.requested p k .write]
  | _, _ => []

/-- What a call that returns `Ok` leaves behind. -/
def Call.completed : Call → Outcome AccessManagerError (Option ProcId) → List Event
  | .create p k, .ok _ => [.created p k]
  | .delete k, .ok _ => [.deleted k]
  | .read p k, .ok holder => [.answered p k .read holder]
  | .write p k, .ok holder => [.answered p k .write holder]
  | .release p k, .ok _ => [.released p k]
  | _, _ => []

/-- The messages sent between two states of the manager. -/
def sentSince (m m' : AccessManager) : List AccessGranted :=
  m'.accessGranted.buffer.drop m.accessGranted.buffer.length

def step (m : AccessManager) : Input → AccessManager × List Event
  | .call iter c =>
      let r := (c.invoke iter).run m
      (r.2, c.asked r.1 ++ c.completed r.1 ++ (m.sentSince r.2).map .notified)
  | .tryIter => ((tryIter.run m).2, [])

/-- The manager as a machine; its runs are the sequences of calls on a fresh manager. -/
def machine : IOMachine AccessManager Input Event where
  start := new
  step := step

/-! ## What a call does to its key -/

/-- A waiter of the lock, told of its access. -/
def notice (k : KeyId) (c : ProcId) (e : ProcId × Mode) : Event :=
  .notified (grantMessage k c e)

/-- Everything a call can do to its key, with the events it leaves behind. -/
inductive KeyMove (k : KeyId) : Option KeyState → List Event → Option KeyState → Prop where
  /-- The call is refused. -/
  | stay (o : Option KeyState) : KeyMove k o [] o
  | create (p : ProcId) : KeyMove k none [.created p k] (some (KeyState.new p))
  | delete (l : FairLock ProcId) (c : ProcId) (hidle : l.Idle) :
      KeyMove k (some (KeyState.ofLock l.toLock c)) [.deleted k] none
  /-- `read` or `write` lets the process in; `read` names one of the readers, the process
  among them. -/
  | enter (l : FairLock ProcId) (c p : ProcId) (m : Mode) (holder : Option ProcId)
      (hask : (l.ask p m).1 = true)
      (hholder : m = .read → ∃ h ∈ (l.ask p m).2.readers, holder = some h) :
      KeyMove k (some (KeyState.ofLock l.toLock c))
        [.requested p k (requestOf m), .answered p k (requestOf m) holder]
        (some (KeyState.ofLock (l.ask p m).2.toLock c))
  /-- `read` or `write` queues the process up. -/
  | wait (l : FairLock ProcId) (c p : ProcId) (m : Mode) (hask : (l.ask p m).1 = false) :
      KeyMove k (some (KeyState.ofLock l.toLock c)) [.requested p k (requestOf m)]
        (some (KeyState.ofLock (l.ask p m).2.toLock c))
  /-- A holder releases the key, and waiters get in. -/
  | leave (l : FairLock ProcId) (c p : ProcId) (hmode : l.mode p ≠ none) :
      KeyMove k (some (KeyState.ofLock l.toLock c))
        (.released p k :: (l.leave p).1.map (notice k c))
        (some (KeyState.ofLock (l.leave p).2.toLock c))

theorem KeyMove.key {k : KeyId} {o o' : Option KeyState} {evs : List Event}
    (h : KeyMove k o evs o') : ∀ e ∈ evs, e.key = k := by
  cases h with
  | stay => simp
  | create | delete | enter | wait => simp [Event.key]
  | leave l c p =>
      intro e he
      rcases List.mem_cons.1 he with rfl | he
      · rfl
      · obtain ⟨e', -, rfl⟩ := List.mem_map.1 he
        rfl

/-- A key that is there is a fair lock. -/
def FairKey (o : Option KeyState) : Prop :=
  ∀ ks, o = some ks → ∃ (l : FairLock ProcId) (c : ProcId), ks = KeyState.ofLock l.toLock c

theorem KeyMove.fair {k : KeyId} {o o' : Option KeyState} {evs : List Event}
    (h : KeyMove k o evs o') (ho : FairKey o) : FairKey o' := by
  intro ks hks
  cases h with
  | stay => exact ho ks hks
  | create p => cases hks; exact ⟨FairLock.free, p, rfl⟩
  | delete => cases hks
  | enter | wait | leave => cases hks; exact ⟨_, _, rfl⟩

@[simp] theorem sentSince_self (m : AccessManager) : m.sentSince m = [] := by
  simp [sentSince]

@[simp] theorem sentSince_setKeyState (m : AccessManager) (k : KeyId) (ks : KeyState) :
    m.sentSince (m.setKeyState k ks) = [] := by
  simp [sentSince]

@[simp] theorem sentSince_settled (m : AccessManager) (k : KeyId) (c : ProcId)
    (r : List (ProcId × Mode) × Lock ProcId) :
    m.sentSince (m.settled k c r) = r.1.map (grantMessage k c) := by
  simp [sentSince, settled, sent]

theorem holder_ofLock_mem {l : Lock ProcId} (iter : SetIter ProcId) (c : ProcId)
    (hw : l.writer = none) (hr : l.readers ≠ ∅) :
    (KeyState.ofLock l c).holder iter ∈ l.readers := by
  simp only [KeyState.holder, KeyState.ofLock, hw, if_pos hr]
  exact iter.first_mem _ (Finset.nonempty_iff_ne_empty.2 hr)

/-- Whoever `ask` lets in to read is among the readers, without a writer. -/
theorem ask_read_granted {l : FairLock ProcId} {p : ProcId} (h : (l.ask p .read).1 = true) :
    (l.ask p .read).2.writer = none ∧ (l.ask p .read).2.readers ≠ ∅ := by
  unfold FairLock.ask at h ⊢
  split
  · rename_i hask
    exact ⟨hask.2, Finset.insert_ne_empty p l.readers⟩
  · rename_i hask
    simp [hask] at h

theorem step_of_run {m m' : AccessManager} {iter : SetIter ProcId} {c : Call}
    {o : Outcome AccessManagerError (Option ProcId)} (h : (c.invoke iter).run m = (o, m')) :
    m.step (.call iter c)
      = (m', c.asked o ++ c.completed o ++ (m.sentSince m').map .notified) := by
  simp [step, h]

/-! ## Calls on a key -/

/-- Only `create` does not need the key. -/
theorem invoke_missing {m : AccessManager} {c : Call} (hk : m.keyStates c.key = none)
    (iter : SetIter ProcId) (hcreate : ∀ p k, c ≠ .create p k) :
    (c.invoke iter).run m = (.err (.keyNotFound c.key), m) := by
  cases c with
  | create p k => exact absurd rfl (hcreate p k)
  | delete k => exact Exec.bind_err (missing_key_run hk iter 0).1
  | read p k => exact Exec.bind_err (missing_key_run hk iter p).2.1
  | write p k => exact Exec.bind_err (missing_key_run hk iter p).2.2.1
  | release p k => exact Exec.bind_err (missing_key_run hk iter p).2.2.2

theorem invoke_create (m : AccessManager) (iter : SetIter ProcId) (p : ProcId) (k : KeyId) :
    (Call.invoke iter (.create p k)).run m
      = if (m.keyStates k).isSome then (.err (.keyExists k), m)
        else (.ok none, m.setKeyState k (KeyState.new p)) := by
  rw [Call.invoke, Exec.bind_run, create_run]
  by_cases hk : (m.keyStates k).isSome <;> simp [hk]

section

variable {m : AccessManager} {k : KeyId} {creator : ProcId} {l : FairLock ProcId}

theorem invoke_delete (iter : SetIter ProcId)
    (hk : m.keyStates k = some (KeyState.ofLock l.toLock creator)) :
    (Call.invoke iter (.delete k)).run m
      = if l.Idle then (.ok none, { m with keyStates := Function.update m.keyStates k none })
        else (.err .keyAccessed, m) := by
  rw [Call.invoke, Exec.bind_run, delete_run hk]
  by_cases hidle : l.Idle <;> simp [hidle]

theorem invoke_read (iter : SetIter ProcId) (p : ProcId)
    (hk : m.keyStates k = some (KeyState.ofLock l.toLock creator)) :
    (Call.invoke iter (.read p k)).run m
      = (if (l.ask p .read).1
          then .ok (some ((KeyState.ofLock (l.ask p .read).2.toLock creator).holder iter))
          else .err (.requestAccess p k),
        m.setKeyState k (KeyState.ofLock (l.ask p .read).2.toLock creator)) := by
  rw [Call.invoke, Exec.bind_run, read_run iter p hk]
  cases (l.ask p .read).1 <;> rfl

theorem invoke_write (iter : SetIter ProcId) (p : ProcId)
    (hk : m.keyStates k = some (KeyState.ofLock l.toLock creator)) :
    (Call.invoke iter (.write p k)).run m
      = (if (l.ask p .write).1 then .ok none else .err (.requestAccess p k),
        m.setKeyState k (KeyState.ofLock (l.ask p .write).2.toLock creator)) := by
  rw [Call.invoke, Exec.bind_run, write_run p hk]
  cases (l.ask p .write).1 <;> rfl

theorem invoke_release (iter : SetIter ProcId) (p : ProcId)
    (hconn : m.accessGranted.connected = true)
    (hk : m.keyStates k = some (KeyState.ofLock l.toLock creator)) :
    (Call.invoke iter (.release p k)).run m
      = if l.mode p = none then (.err (.releaseAccess p k), m)
        else (.ok none, m.settled k creator ((l.leave p).1, (l.leave p).2.toLock)) := by
  rw [Call.invoke, Exec.bind_run, release_run iter p hconn hk]
  by_cases hmode : l.mode p = none <;> simp [hmode]

end

/-! ## Every call is a move -/

/-- The manager after messages have been sent and the key `k` has become `o`. -/
def after (m : AccessManager) (k : KeyId) (messages : List AccessGranted) (o : Option KeyState) :
    AccessManager :=
  { m.sent messages with keyStates := Function.update m.keyStates k o }

theorem after_self {m : AccessManager} {k : KeyId} {o : Option KeyState} (h : m.keyStates k = o) :
    m.after k [] o = m := by
  rw [← h]
  simp [after]

@[simp] theorem sentSince_after (m : AccessManager) (k : KeyId) (messages : List AccessGranted)
    (o : Option KeyState) : m.sentSince (m.after k messages o) = messages := by
  simp [sentSince, after, sent]

/-- The call by which `p` asks for the key `k`. -/
def Call.ask (p : ProcId) (k : KeyId) : Mode → Call
  | .read => .read p k
  | .write => .write p k

/-- **What a call does** to a key: how it ends, the messages it sends and what becomes of the
key. -/
inductive Effect : Call → Option KeyState → Outcome AccessManagerError (Option ProcId) →
    List AccessGranted → Option KeyState → Prop where
  | missing (c : Call) (hcreate : ∀ p k, c ≠ .create p k) :
      Effect c none (.err (.keyNotFound c.key)) [] none
  | present (p : ProcId) (k : KeyId) (ks : KeyState) :
      Effect (.create p k) (some ks) (.err (.keyExists k)) [] (some ks)
  | create (p : ProcId) (k : KeyId) :
      Effect (.create p k) none (.ok none) [] (some (KeyState.new p))
  | busy (k : KeyId) (l : FairLock ProcId) (c : ProcId) (hidle : ¬ l.Idle) :
      Effect (.delete k) (some (KeyState.ofLock l.toLock c)) (.err .keyAccessed) []
        (some (KeyState.ofLock l.toLock c))
  | delete (k : KeyId) (l : FairLock ProcId) (c : ProcId) (hidle : l.Idle) :
      Effect (.delete k) (some (KeyState.ofLock l.toLock c)) (.ok none) [] none
  /-- `read` names one of the readers, the process among them. -/
  | read (k : KeyId) (l : FairLock ProcId) (c p holder : ProcId)
      (hask : (l.ask p .read).1 = true) (hholder : holder ∈ (l.ask p .read).2.readers) :
      Effect (.read p k) (some (KeyState.ofLock l.toLock c)) (.ok (some holder)) []
        (some (KeyState.ofLock (l.ask p .read).2.toLock c))
  | write (k : KeyId) (l : FairLock ProcId) (c p : ProcId) (hask : (l.ask p .write).1 = true) :
      Effect (.write p k) (some (KeyState.ofLock l.toLock c)) (.ok none) []
        (some (KeyState.ofLock (l.ask p .write).2.toLock c))
  | wait (k : KeyId) (l : FairLock ProcId) (c p : ProcId) (m : Mode)
      (hask : (l.ask p m).1 = false) :
      Effect (Call.ask p k m) (some (KeyState.ofLock l.toLock c)) (.err (.requestAccess p k)) []
        (some (KeyState.ofLock (l.ask p m).2.toLock c))
  | unheld (k : KeyId) (l : FairLock ProcId) (c p : ProcId) (hmode : l.mode p = none) :
      Effect (.release p k) (some (KeyState.ofLock l.toLock c)) (.err (.releaseAccess p k)) []
        (some (KeyState.ofLock l.toLock c))
  | release (k : KeyId) (l : FairLock ProcId) (c p : ProcId) (hmode : l.mode p ≠ none) :
      Effect (.release p k) (some (KeyState.ofLock l.toLock c)) (.ok none)
        ((l.leave p).1.map (grantMessage k c)) (some (KeyState.ofLock (l.leave p).2.toLock c))

/-- What `invoke_spec` says of a call on a key in the state `o`. -/
def Makes (c : Call) (o : Option KeyState) (messages : List AccessGranted)
    (o' : Option KeyState) : Prop :=
  ∀ iter, ∃ out, Effect c o out messages o' ∧
    ∀ m : AccessManager, m.accessGranted.connected = true → m.keyStates c.key = o →
      (c.invoke iter).run m = (out, m.after c.key messages o')

/-- A call that is refused leaves the key as it is. -/
theorem makes_refused {c : Call} {o : Option KeyState} {e : AccessManagerError}
    (heffect : Effect c o (.err e) [] o)
    (hrun : ∀ (m : AccessManager) (iter : SetIter ProcId), m.accessGranted.connected = true →
      m.keyStates c.key = o → (c.invoke iter).run m = (.err e, m)) :
    Makes c o [] o := by
  refine fun iter => ⟨_, heffect, fun m hconn hk => ?_⟩
  rw [hrun m iter hconn hk, after_self hk]

theorem makes_missing (c : Call) : ∃ messages o', Makes c none messages o' := by
  cases c with
  | create p k =>
      refine ⟨[], some (KeyState.new p), fun iter => ⟨_, .create p k, fun m _ hk => ?_⟩⟩
      dsimp only [Call.key] at hk ⊢
      rw [invoke_create, if_neg (by simp [hk])]
      simp [after, setKeyState]
  | delete | read | write | release =>
      exact ⟨[], none, makes_refused (.missing _ (by simp)) fun m iter _ hk =>
        invoke_missing hk iter (by simp)⟩

theorem makes_ask {l : FairLock ProcId} {creator : ProcId} (p : ProcId) (k : KeyId) (mode : Mode) :
    Makes (Call.ask p k mode) (some (KeyState.ofLock l.toLock creator)) []
      (some (KeyState.ofLock (l.ask p mode).2.toLock creator)) := by
  intro iter
  by_cases hask : (l.ask p mode).1 = true
  · cases mode with
    | read =>
        obtain ⟨hw, hr⟩ := ask_read_granted hask
        refine ⟨_, .read k l creator p _ hask (holder_ofLock_mem iter creator hw hr),
          fun m _ hk => ?_⟩
        dsimp only [Call.ask, Call.key] at hk ⊢
        rw [invoke_read iter p hk, if_pos hask]
        simp [after, setKeyState]
    | write =>
        refine ⟨_, .write k l creator p hask, fun m _ hk => ?_⟩
        dsimp only [Call.ask, Call.key] at hk ⊢
        rw [invoke_write iter p hk, if_pos hask]
        simp [after, setKeyState]
  · refine ⟨_, .wait k l creator p mode (Bool.eq_false_iff.2 hask), fun m _ hk => ?_⟩
    cases mode with
    | read =>
        dsimp only [Call.ask, Call.key] at hk ⊢
        rw [invoke_read iter p hk, if_neg hask]
        simp [after, setKeyState]
    | write =>
        dsimp only [Call.ask, Call.key] at hk ⊢
        rw [invoke_write iter p hk, if_neg hask]
        simp [after, setKeyState]

theorem makes_lock (l : FairLock ProcId) (creator : ProcId) (c : Call) :
    ∃ messages o', Makes c (some (KeyState.ofLock l.toLock creator)) messages o' := by
  cases c with
  | create p k =>
      refine ⟨_, _, makes_refused (.present p k _) fun m iter _ hk => ?_⟩
      dsimp only [Call.key] at hk
      rw [invoke_create, if_pos (by simp [hk])]
  | delete k =>
      by_cases hidle : l.Idle
      · refine ⟨[], none, fun iter => ⟨_, .delete k l creator hidle, fun m _ hk => ?_⟩⟩
        dsimp only [Call.key] at hk ⊢
        rw [invoke_delete iter hk, if_pos hidle]
        simp [after]
      · refine ⟨_, _, makes_refused (.busy k l creator hidle) fun m iter _ hk => ?_⟩
        dsimp only [Call.key] at hk
        rw [invoke_delete iter hk, if_neg hidle]
  | read p k => exact ⟨_, _, makes_ask p k .read⟩
  | write p k => exact ⟨_, _, makes_ask p k .write⟩
  | release p k =>
      by_cases hmode : l.mode p = none
      · refine ⟨_, _, makes_refused (.unheld k l creator p hmode) fun m iter hconn hk => ?_⟩
        dsimp only [Call.key] at hk
        rw [invoke_release iter p hconn hk, if_pos hmode]
      · refine ⟨_, _, fun iter => ⟨_, .release k l creator p hmode, fun m hconn hk => ?_⟩⟩
        dsimp only [Call.key] at hk ⊢
        rw [invoke_release iter p hconn hk, if_neg hmode]
        rfl

/-- **The specification of the calls.** What a call does to a key, and the messages it sends,
are determined by the state of the key: neither the other keys nor the channel nor the order in
which readers are walked have a part in it. The holder that `read` names depends on that
order. -/
theorem invoke_spec {o : Option KeyState} (ho : FairKey o) (c : Call) :
    ∃ messages o', Makes c o messages o' := by
  cases o with
  | none => exact makes_missing c
  | some ks =>
      obtain ⟨l, creator, rfl⟩ := ho ks rfl
      exact makes_lock l creator c

/-- `invoke_spec` on a valid manager. -/
theorem invoke_effect {m : AccessManager} (hv : m.Valid) (iter : SetIter ProcId) (c : Call) :
    ∃ out messages o', Effect c (m.keyStates c.key) out messages o' ∧
      (c.invoke iter).run m = (out, m.after c.key messages o') := by
  obtain ⟨messages, o', hmakes⟩ := invoke_spec (hv.fair c.key) c
  obtain ⟨out, heffect, hrun⟩ := hmakes iter
  exact ⟨out, messages, o', heffect, hrun m hv.connected rfl⟩

/-- The events that a call leaves behind are those of a move of its key. -/
theorem Effect.move {c : Call} {o o' : Option KeyState}
    {out : Outcome AccessManagerError (Option ProcId)} {messages : List AccessGranted}
    (h : Effect c o out messages o') :
    KeyMove c.key o (c.asked out ++ c.completed out ++ messages.map .notified) o' := by
  cases h with
  | missing c hcreate =>
      cases c with
      | create p k => exact absurd rfl (hcreate p k)
      | delete | read | write | release => exact .stay _
  | present | busy | unheld => exact .stay _
  | create p k => exact .create p
  | delete k l c hidle => exact .delete l c hidle
  | read k l c p holder hask hholder =>
      exact .enter l c p .read (some holder) hask fun _ => ⟨holder, hholder, rfl⟩
  | write k l c p hask => exact .enter l c p .write none hask fun h => by cases h
  | wait k l c p mode hask => cases mode <;> exact .wait l c p _ hask
  | release k l c p hmode =>
      rw [List.map_map]
      exact .leave l c p hmode

/-- What `call_step` says of a call that ends in `m'` with the events `evs`. -/
structure Moves (m : AccessManager) (k : KeyId) (evs : List Event) (m' : AccessManager)
    (o' : Option KeyState) : Prop where
  move : KeyMove k (m.keyStates k) evs o'
  frame : m'.keyStates = Function.update m.keyStates k o'
  connected : m'.accessGranted.connected = true

/-- **Every call is a move of its key.** On a valid manager a call moves its own key, leaves
the events of the move behind, and changes nothing else. -/
theorem call_step {m : AccessManager} (hv : m.Valid) (iter : SetIter ProcId) (c : Call) :
    ∃ o', Moves m c.key (m.step (.call iter c)).2 (m.step (.call iter c)).1 o' := by
  obtain ⟨out, messages, o', heffect, hrun⟩ := invoke_effect hv iter c
  rw [step_of_run hrun, sentSince_after]
  exact ⟨o', heffect.move, rfl, hv.connected⟩

theorem step_valid {m : AccessManager} (hv : m.Valid) (i : Input) : (m.step i).1.Valid := by
  cases i with
  | tryIter => exact ⟨hv.connected, hv.fair⟩
  | call iter c =>
      obtain ⟨o', hmove, hframe, hconn⟩ := call_step hv iter c
      refine ⟨hconn, ?_⟩
      intro k ks hks
      rw [hframe] at hks
      by_cases hkey : k = c.key
      · subst hkey
        rw [Function.update_self] at hks
        exact hmove.fair (hv.fair c.key) ks hks
      · rw [Function.update_of_ne hkey] at hks
        exact hv.fair k ks hks

theorem exec_valid {m : AccessManager} (hv : m.Valid) (inputs : List Input) :
    (machine.exec m inputs).1.Valid :=
  IOMachine.exec_induction (M := machine) (fun m _ => m.Valid) (fun _ _ i hv => step_valid hv i)
    m [] hv inputs

/-- **The manager stays valid** in every run. -/
theorem run_valid (inputs : List Input) : (machine.run inputs).1.Valid :=
  exec_valid valid_new inputs

/-! ## A run as one key sees it -/

/-- The events on the key `k`. -/
def onKey (k : KeyId) (log : List Event) : List Event := log.filter fun e => e.key = k

theorem onKey_append (k : KeyId) (log log' : List Event) :
    onKey k (log ++ log') = onKey k log ++ onKey k log' := by
  simp [onKey]

/-- The step is a call on the key `k`. -/
def Input.on (k : KeyId) : Input → Bool
  | .call _ c => c.key == k
  | .tryIter => false

/-- A step that is no call on `k` leaves it alone. -/
theorem step_off {m : AccessManager} (hv : m.Valid) {i : Input} {k : KeyId}
    (hoff : i.on k = false) :
    (m.step i).1.keyStates k = m.keyStates k ∧ onKey k (m.step i).2 = [] := by
  cases i with
  | tryIter => exact ⟨rfl, rfl⟩
  | call iter c =>
      have hne : k ≠ c.key := by
        rintro rfl
        simp [Input.on] at hoff
      obtain ⟨o', hmove, hframe, -⟩ := call_step hv iter c
      refine ⟨by rw [hframe, Function.update_of_ne hne], List.filter_eq_nil_iff.2 ?_⟩
      intro e he
      simpa [hmove.key e he] using Ne.symm hne

theorem step_onKey {m : AccessManager} (hv : m.Valid) (i : Input) (k : KeyId) :
    KeyMove k (m.keyStates k) (onKey k (m.step i).2) ((m.step i).1.keyStates k) := by
  cases hon : i.on k with
  | false =>
      obtain ⟨hstate, hevents⟩ := step_off hv hon
      rw [hstate, hevents]
      exact .stay _
  | true =>
      cases i with
      | tryIter => cases hon
      | call iter c =>
          obtain rfl : c.key = k := by simpa [Input.on] using hon
          obtain ⟨o', hmove, hframe, -⟩ := call_step hv iter c
          rw [onKey, List.filter_eq_self.2 (fun e he => by simpa using hmove.key e he), hframe,
            Function.update_self]
          exact hmove

/-- **Induction over a run, one key at a time.** A property of the state of a key and of the
events on it, kept by every move of the key, holds throughout every run that starts where it
holds. -/
theorem exec_key {P : Option KeyState → List Event → Prop} {k : KeyId}
    (hmove : ∀ o log evs o', FairKey o → P o log → KeyMove k o evs o' → P o' (log ++ evs))
    {m : AccessManager} (hv : m.Valid) {log : List Event} (h : P (m.keyStates k) (onKey k log))
    (inputs : List Input) :
    P ((machine.exec m inputs).1.keyStates k) (onKey k (log ++ (machine.exec m inputs).2)) := by
  have key := IOMachine.exec_induction (M := machine)
    (fun m log => m.Valid ∧ P (m.keyStates k) (onKey k log)) (fun m log i hm => ?_)
    m log ⟨hv, h⟩ inputs
  · exact key.2
  · refine ⟨step_valid hm.1 i, ?_⟩
    show P ((m.step i).1.keyStates k) (onKey k (log ++ (m.step i).2))
    rw [onKey_append]
    exact hmove _ _ _ _ (hm.1.fair k) hm.2 (step_onKey hm.1 i k)

theorem run_key {P : Option KeyState → List Event → Prop} {k : KeyId} (hnew : P none [])
    (hmove : ∀ o log evs o', FairKey o → P o log → KeyMove k o evs o' → P o' (log ++ evs))
    (inputs : List Input) :
    P ((machine.run inputs).1.keyStates k) (onKey k (machine.run inputs).2) := by
  have hstart : P (new.keyStates k) (onKey k []) := hnew
  exact exec_key hmove valid_new hstart inputs

end AccessManager

end Soros
