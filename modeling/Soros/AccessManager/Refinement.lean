import Soros.AccessManager.Basic
import Soros.Lib.RwLock

set_option autoImplicit false

/-! # The access manager implements fair locks

Each key of the manager is a fair reader-writer lock (`Lib/RwLock.lean`): `KeyState.ofLock`
writes a lock down as the state of a key, and in a valid manager every key is one. The `_run`
theorems compute each method on such a key and show that it is the lock's operation: `read`
and `write` are `FairLock.ask`, `release` is `FairLock.leave`, with one message on the
channel for each waiter that `leave` lets in. -/

namespace Soros

open RwLock

/-- The request by which a process asks for the lock in a mode. -/
def requestOf : Mode → RequestType
  | .read => .read
  | .write => .write

theorem requestOf_injective : Function.Injective requestOf := by
  intro m m' h
  cases m <;> cases m' <;> first | rfl | cases h

/-- An entry of the queue as `pending_request` stores it. -/
def pending (e : ProcId × Mode) : ProcId × RequestType := (e.1, requestOf e.2)

/-- The state of a key that implements the lock `l`. -/
def KeyState.ofLock (l : Lock ProcId) (creator : ProcId) : KeyState where
  pendingRequest := l.queue.map pending
  readers := l.readers
  writer := l.writer
  creator := creator

@[simp] theorem KeyState.ofLock_pendingRequest (l : Lock ProcId) (c : ProcId) :
    (KeyState.ofLock l c).pendingRequest = l.queue.map pending := rfl
@[simp] theorem KeyState.ofLock_readers (l : Lock ProcId) (c : ProcId) :
    (KeyState.ofLock l c).readers = l.readers := rfl
@[simp] theorem KeyState.ofLock_writer (l : Lock ProcId) (c : ProcId) :
    (KeyState.ofLock l c).writer = l.writer := rfl
@[simp] theorem KeyState.ofLock_creator (l : Lock ProcId) (c : ProcId) :
    (KeyState.ofLock l c).creator = c := rfl

/-- `p` is registered on the key. -/
def KeyState.Holds (ks : KeyState) (p : ProcId) : Prop := ks.writer = some p ∨ p ∈ ks.readers

instance (ks : KeyState) (p : ProcId) : Decidable (ks.Holds p) := by
  unfold KeyState.Holds; infer_instance

theorem KeyState.holds_ofLock (l : Lock ProcId) (c p : ProcId) :
    (KeyState.ofLock l c).Holds p ↔ l.mode p ≠ none := by
  rw [Ne, Lock.mode_eq_none_iff]
  show l.writer = some p ∨ p ∈ l.readers ↔ _
  tauto

/-- `p` holds the key or waits for it. -/
def KeyState.Involves (ks : KeyState) (p : ProcId) : Prop :=
  ks.Holds p ∨ p ∈ ks.pendingRequest.map Prod.fst

theorem KeyState.involves_ofLock (l : Lock ProcId) (c p : ProcId) :
    (KeyState.ofLock l c).Involves p ↔ l.Involves p := by
  unfold KeyState.Involves Lock.Involves
  rw [KeyState.holds_ofLock]
  simp [pending]

namespace AccessManager

/-- **The invariant of the manager.** The receiving end of the channel is there, and every
key is a fair lock. -/
structure Valid (m : AccessManager) : Prop where
  connected : m.accessGranted.connected = true
  fair : ∀ k ks, m.keyStates k = some ks →
    ∃ (l : FairLock ProcId) (c : ProcId), ks = KeyState.ofLock l.toLock c

theorem valid_new : Valid new where
  connected := rfl
  fair := by intro k ks h; cases h

/-- The message that tells a waiter of its access, `holder` being named as the holder. -/
def grantMessage (k : KeyId) (holder : ProcId) (e : ProcId × Mode) : AccessGranted :=
  (e.1, k, requestOf e.2, holder)

/-- The manager after more messages have been sent on the channel. -/
def sent (m : AccessManager) (messages : List AccessGranted) : AccessManager :=
  { m with accessGranted :=
      { m.accessGranted with buffer := m.accessGranted.buffer ++ messages } }

/-- The manager after `handle_requesting` has granted the entries `r.1` on the key `k` and
left the lock `r.2`. -/
def settled (m : AccessManager) (k : KeyId) (c : ProcId)
    (r : List (ProcId × Mode) × Lock ProcId) : AccessManager :=
  (m.sent (r.1.map (grantMessage k c))).setKeyState k (KeyState.ofLock r.2 c)

/-! ## Elementary steps -/

@[simp] theorem setKeyState_keyStates (m : AccessManager) (k : KeyId) (ks : KeyState) :
    (m.setKeyState k ks).keyStates = Function.update m.keyStates k (some ks) := rfl

@[simp] theorem setKeyState_accessGranted (m : AccessManager) (k : KeyId) (ks : KeyState) :
    (m.setKeyState k ks).accessGranted = m.accessGranted := rfl

@[simp] theorem setKeyState_setKeyState (m : AccessManager) (k : KeyId) (ks ks' : KeyState) :
    (m.setKeyState k ks).setKeyState k ks' = m.setKeyState k ks' := by
  simp [setKeyState]

theorem setKeyState_self {m : AccessManager} {k : KeyId} {ks : KeyState}
    (h : m.keyStates k = some ks) : m.setKeyState k ks = m := by
  simp [setKeyState, ← h]

@[simp] theorem putKeyState_run (k : KeyId) (ks : KeyState) (m : AccessManager) :
    (putKeyState k ks).run m = (.ok (), m.setKeyState k ks) := rfl

theorem getKeyState_some {m : AccessManager} {k : KeyId} {ks : KeyState}
    (h : m.keyStates k = some ks) : (getKeyState k).run m = (.ok ks, m) := by
  simp [getKeyState, Exec.bind_run, h]

theorem getKeyState_none {m : AccessManager} {k : KeyId} (h : m.keyStates k = none) :
    (getKeyState k).run m = (.err (.keyNotFound k), m) := by
  simp [getKeyState, Exec.bind_run, h]

@[simp] theorem sent_keyStates (m : AccessManager) (as : List AccessGranted) :
    (m.sent as).keyStates = m.keyStates := rfl

@[simp] theorem sent_connected (m : AccessManager) (as : List AccessGranted) :
    (m.sent as).accessGranted.connected = m.accessGranted.connected := rfl

@[simp] theorem sent_nil (m : AccessManager) : m.sent [] = m := by simp [sent]

@[simp] theorem sent_sent (m : AccessManager) (as bs : List AccessGranted) :
    (m.sent as).sent bs = m.sent (as ++ bs) := by
  simp [sent]

@[simp] theorem setKeyState_sent (m : AccessManager) (k : KeyId) (ks : KeyState)
    (as : List AccessGranted) : (m.setKeyState k ks).sent as = (m.sent as).setKeyState k ks := rfl

theorem send_run {m : AccessManager} (h : m.accessGranted.connected = true) (a : AccessGranted) :
    (send a).run m = (.ok (), m.sent [a]) := by
  simp [send, Exec.bind_run, Channel.send_connected h, sent]

/-! ## The grant loop -/

/-- One iteration of the loop of `handle_requesting`. -/
theorem grantReads_cons {m : AccessManager} {k : KeyId} {c p : ProcId} {l : Lock ProcId}
    {q : List (ProcId × Mode)} (hconn : m.accessGranted.connected = true)
    (hk : m.keyStates k = some (KeyState.ofLock { l with queue := (p, .read) :: q } c)) :
    (grantReads k c (((p, Mode.read) :: q).map pending)).run m
      = (grantReads k c (q.map pending)).run ((m.sent [(p, k, .read, c)]).setKeyState k
          (KeyState.ofLock { l.hold p .read with queue := q } c)) := by
  show (send (p, k, .read, c) >>= _).run m = _
  rw [Exec.bind_ok (send_run hconn _),
    Exec.bind_ok (getKeyState_some (m := m.sent [(p, k, .read, c)]) hk)]
  rfl

/-- The loop of `handle_requesting` is the lock's own rule once a reader is in: it lets the
reads at the front of the queue pass and stops at a write. -/
theorem grantReads_run (k : KeyId) (c : ProcId) (q : List (ProcId × Mode)) :
    ∀ (l : Lock ProcId) (m : AccessManager), l.writer = none → l.readers ≠ ∅ →
      m.accessGranted.connected = true →
      m.keyStates k = some (KeyState.ofLock { l with queue := q } c) →
      (grantReads k c (q.map pending)).run m = (.ok (), m.settled k c (l.settle q)) := by
  induction q with
  | nil =>
      intro l m hw hr hconn hk
      show (Outcome.ok (), m) = _
      simp [settled, Lock.settle, setKeyState_self hk]
  | cons e q ih =>
      intro l m hw hr hconn hk
      obtain ⟨p, mode⟩ := e
      cases mode with
      | write =>
          have hroom : ¬ l.HasRoom .write := fun h => hr h.2
          show (Outcome.ok (), m) = _
          simp [settled, Lock.settle, hroom, setKeyState_self hk]
      | read =>
          have hroom : l.HasRoom .read := hw
          have hrest := ih (l.hold p .read) ((m.sent [(p, k, .read, c)]).setKeyState k
            (KeyState.ofLock { l.hold p .read with queue := q } c)) hw
            (Finset.insert_ne_empty p l.readers) hconn (by simp)
          rw [grantReads_cons hconn hk, hrest]
          simp [settled, Lock.settle, hroom, grantMessage, requestOf]

/-- On a key that nobody holds, `handle_requesting` lets in whoever the lock would, names the
creator as the holder and neither panics nor fails. -/
theorem handleRequesting_run {m : AccessManager} {k : KeyId} {c : ProcId} {l : Lock ProcId}
    (iter : SetIter ProcId) (hidle : l.Idle) (hconn : m.accessGranted.connected = true)
    (hk : m.keyStates k = some (KeyState.ofLock l c)) :
    (handleRequesting iter k).run m = (.ok (), m.settled k c (l.settle l.queue)) := by
  obtain ⟨readers, writer, queue⟩ := l
  obtain ⟨hr, hw⟩ := hidle
  dsimp only at hr hw
  subst hr hw
  unfold handleRequesting
  rw [Exec.bind_ok (Exec.get_run m), hk]
  cases queue with
  | nil =>
      show (Outcome.ok (), m) = _
      simp [settled, Lock.settle, setKeyState_self hk]
  | cons e q =>
      obtain ⟨p, mode⟩ := e
      cases mode with
      | write =>
          have hroom : (Lock.mk ∅ none ((p, Mode.write) :: q)).HasRoom .write := ⟨rfl, rfl⟩
          show (send (p, k, .write, c) >>= _).run m = _
          rw [Exec.bind_ok (send_run hconn _), Lock.settle, if_pos hroom,
            Lock.settle_of_writer (Option.some_ne_none p)]
          rfl
      | read =>
          have hroom : (Lock.mk ∅ none ((p, Mode.read) :: q)).HasRoom .read := rfl
          show (grantReads k c (((p, Mode.read) :: q).map pending)).run m = _
          have hrest := grantReads_run k c q ⟨{p}, none, (p, .read) :: q⟩
            ((m.sent [(p, k, .read, c)]).setKeyState k (KeyState.ofLock ⟨{p}, none, q⟩ c)) rfl
            (Finset.singleton_ne_empty p) hconn (by simp)
          rw [Lock.settle, if_pos hroom]
          refine (grantReads_cons (l := ⟨∅, none, q⟩) hconn hk).trans (hrest.trans ?_)
          simp [settled, grantMessage, requestOf, Lock.hold]

/-! ## The methods on a key that is there -/

section

variable {m : AccessManager} {k : KeyId} {ks : KeyState}

theorem delete_run_some (hk : m.keyStates k = some ks) :
    (delete k).run m = if ks.readers ≠ ∅ ∨ ks.writer.isSome then (.err .keyAccessed, m)
      else (.ok (), { m with keyStates := Function.update m.keyStates k none }) := by
  unfold delete
  rw [Exec.bind_ok (getKeyState_some hk)]
  split <;> rfl

theorem read_run_some (iter : SetIter ProcId) (p : ProcId) (hk : m.keyStates k = some ks) :
    (read iter p k).run m
      = if ks.writer.isSome ∨ ks.pendingRequest.head?.any (fun req => req.2 == .write) then
          (.err (.requestAccess p k), m.setKeyState k
            { ks with pendingRequest := ks.pendingRequest ++ [(p, .read)] })
        else (.ok ((ks.registerReader p).holder iter), m.setKeyState k (ks.registerReader p)) := by
  unfold read
  rw [Exec.bind_ok (getKeyState_some hk)]
  dsimp only
  split <;> rfl

theorem write_run_some (p : ProcId) (hk : m.keyStates k = some ks) :
    (write p k).run m
      = if ks.readers ≠ ∅ ∨ ks.writer.isSome then
          (.err (.requestAccess p k), m.setKeyState k
            { ks with pendingRequest := ks.pendingRequest ++ [(p, .write)] })
        else (.ok (), m.setKeyState k (ks.registerWriter p)) := by
  unfold write
  rw [Exec.bind_ok (getKeyState_some hk)]
  split <;> rfl

theorem writer_any_iff (ks : KeyState) (p : ProcId) :
    (ks.writer.any fun writer => writer == p) = true ↔ ks.writer = some p := by
  cases ks.writer <;> simp

/-- The manager on which `release` calls `handle_requesting`, if it does: the writer is
gone, or the last reader is. -/
def handlingEntry (m : AccessManager) (p : ProcId) (k : KeyId) : Option AccessManager :=
  match m.keyStates k with
  | none => none
  | some ks =>
      if ks.writer = some p then some (m.setKeyState k { ks with writer := none })
      else if p ∈ ks.readers ∧ ks.readers.erase p = ∅ then
        some (m.setKeyState k { ks with readers := ks.readers.erase p })
      else none

theorem handlingEntry_some (p : ProcId) (hk : m.keyStates k = some ks) :
    m.handlingEntry p k
      = if ks.writer = some p then some (m.setKeyState k { ks with writer := none })
        else if p ∈ ks.readers ∧ ks.readers.erase p = ∅ then
          some (m.setKeyState k { ks with readers := ks.readers.erase p })
        else none := by
  unfold handlingEntry
  rw [hk]

theorem release_run_entry {m' : AccessManager} (iter : SetIter ProcId) (p : ProcId)
    (h : m.handlingEntry p k = some m') :
    (release iter p k).run m = (handleRequesting iter k).run m' := by
  unfold handlingEntry at h
  split at h
  · cases h
  · rename_i ks hk
    unfold release
    rw [Exec.bind_ok (getKeyState_some hk)]
    dsimp only
    by_cases hw : ks.writer = some p
    · rw [if_pos hw] at h
      cases h
      rw [if_neg (by simp [hw]), if_pos ((writer_any_iff ks p).2 hw)]
      rfl
    · rw [if_neg hw] at h
      split at h
      · rename_i hr
        cases h
        rw [if_neg (by simp [hr.1]), if_neg (fun hany => hw ((writer_any_iff ks p).1 hany)),
          if_pos hr.2]
        rfl
      · cases h

theorem release_run_no_entry (iter : SetIter ProcId) (p : ProcId)
    (hk : m.keyStates k = some ks) (h : m.handlingEntry p k = none) :
    (release iter p k).run m
      = if p ∈ ks.readers then
          (.ok (), m.setKeyState k { ks with readers := ks.readers.erase p })
        else (.err (.releaseAccess p k), m) := by
  rw [handlingEntry_some p hk] at h
  unfold release
  rw [Exec.bind_ok (getKeyState_some hk)]
  dsimp only
  by_cases hw : ks.writer = some p
  · simp [hw] at h
  · rw [if_neg hw] at h
    by_cases hr : p ∈ ks.readers
    · have hlast : ks.readers.erase p ≠ ∅ := fun he => by simp [hr, he] at h
      rw [if_pos hr, if_neg (by simp [hr]), if_neg (fun hany => hw ((writer_any_iff ks p).1 hany)),
        if_neg hlast]
      rfl
    · have hany : (ks.writer.any fun writer => writer == p) = false := by
        rw [Bool.eq_false_iff]
        exact fun hany => hw ((writer_any_iff ks p).1 hany)
      rw [if_neg hr, if_pos (by simp [hr, hany])]
      rfl

end

/-! ## The methods on a fair lock -/

section

variable {m : AccessManager} {k : KeyId} {c : ProcId} {l : FairLock ProcId}

theorem create_run (p : ProcId) :
    (create p k).run m = if (m.keyStates k).isSome then (.err (.keyExists k), m)
      else (.ok (), m.setKeyState k (KeyState.new p)) := by
  unfold create
  rw [Exec.bind_ok (Exec.get_run m)]
  split <;> rfl

theorem held_iff_not_idle (l : Lock ProcId) :
    (l.readers ≠ ∅ ∨ l.writer.isSome) ↔ ¬ l.Idle := by
  cases hw : l.writer <;> simp [Lock.Idle, hw]

theorem delete_run (hk : m.keyStates k = some (KeyState.ofLock l.toLock c)) :
    (delete k).run m = if l.Idle
      then (.ok (), { m with keyStates := Function.update m.keyStates k none })
      else (.err .keyAccessed, m) := by
  have hiff := held_iff_not_idle l.toLock
  rw [delete_run_some hk, KeyState.ofLock_readers, KeyState.ofLock_writer]
  by_cases hidle : l.Idle
  · rw [if_pos hidle, if_neg (fun h => hiff.1 h hidle)]
  · rw [if_neg hidle, if_pos (hiff.2 hidle)]

/-- `read` tests only the front of the queue for a write. On a fair lock this is the rule of
`ask`: without a writer, whatever waits at the front is a write. -/
theorem read_blocked_iff (l : FairLock ProcId) :
    (l.writer.isSome ∨ (l.queue.map pending).head?.any (fun req => req.2 == .write))
      ↔ ¬ (l.queue = [] ∧ l.HasRoom .read) := by
  cases hw : l.writer with
  | some w => simp [Lock.HasRoom, hw]
  | none =>
      cases hq : l.queue with
      | nil => simp [Lock.HasRoom, hw]
      | cons e q =>
          have hno := l.saturated e (by simp [hq])
          cases hm : e.2 with
          | read => simp [hm, Lock.HasRoom, hw] at hno
          | write => simp [pending, hm, requestOf]

theorem read_run (iter : SetIter ProcId) (p : ProcId)
    (hk : m.keyStates k = some (KeyState.ofLock l.toLock c)) :
    (read iter p k).run m
      = (if (l.ask p .read).1
          then .ok ((KeyState.ofLock (l.ask p .read).2.toLock c).holder iter)
          else .err (.requestAccess p k),
        m.setKeyState k (KeyState.ofLock (l.ask p .read).2.toLock c)) := by
  have hiff := read_blocked_iff l
  rw [read_run_some iter p hk, KeyState.ofLock_writer, KeyState.ofLock_pendingRequest]
  by_cases hask : l.queue = [] ∧ l.HasRoom .read
  · rw [if_neg (fun h => hiff.1 h hask)]
    simp only [FairLock.ask, dif_pos hask]
    rfl
  · rw [if_pos (hiff.2 hask)]
    simp only [FairLock.ask, dif_neg hask]
    simp [KeyState.ofLock, pending, requestOf]

theorem write_run (p : ProcId) (hk : m.keyStates k = some (KeyState.ofLock l.toLock c)) :
    (write p k).run m
      = (if (l.ask p .write).1 then .ok () else .err (.requestAccess p k),
        m.setKeyState k (KeyState.ofLock (l.ask p .write).2.toLock c)) := by
  have hiff := held_iff_not_idle l.toLock
  rw [write_run_some p hk, KeyState.ofLock_readers, KeyState.ofLock_writer]
  by_cases hidle : l.Idle
  · have hask : l.queue = [] ∧ l.HasRoom .write :=
      ⟨FairLock.queue_of_idle hidle, hidle.2, hidle.1⟩
    rw [if_neg (fun h => hiff.1 h hidle)]
    simp only [FairLock.ask, dif_pos hask]
    rfl
  · have hask : ¬ (l.queue = [] ∧ l.HasRoom .write) := fun h => hidle ⟨h.2.2, h.2.1⟩
    rw [if_pos (hiff.2 hidle)]
    simp only [FairLock.ask, dif_neg hask]
    simp [KeyState.ofLock, pending, requestOf]

/-- On a fair lock `release` reaches `handle_requesting` exactly when the departure leaves the
key free, and the key is free there. -/
theorem handlingEntry_ofLock (p : ProcId) (hk : m.keyStates k = some (KeyState.ofLock l.toLock c)) :
    m.handlingEntry p k = if l.mode p ≠ none ∧ (l.drop p).Idle
      then some (m.setKeyState k (KeyState.ofLock (l.drop p) c)) else none := by
  have hiff := Lock.mode_eq_none_iff l.toLock p
  rw [handlingEntry_some p hk]
  by_cases hw : l.writer = some p
  · have hr : l.readers = ∅ := l.exclusive (by simp [hw])
    have hidle : l.mode p ≠ none ∧ (l.drop p).Idle :=
      ⟨by simp [hiff, hw], by simp [Lock.Idle, Lock.drop, hw, hr]⟩
    rw [if_pos (show (KeyState.ofLock l.toLock c).writer = some p from hw), if_pos hidle]
    simp [Lock.drop, KeyState.ofLock, hw, hr]
  · rw [if_neg (show (KeyState.ofLock l.toLock c).writer ≠ some p from hw)]
    by_cases hr : p ∈ (KeyState.ofLock l.toLock c).readers
        ∧ (KeyState.ofLock l.toLock c).readers.erase p = ∅
    · have hnone : l.writer = none := by
        by_contra hne
        simp [l.exclusive hne] at hr
      have hidle : l.mode p ≠ none ∧ (l.drop p).Idle :=
        ⟨fun hno => (hiff.1 hno).2 hr.1, hr.2, by simp [Lock.drop, hnone]⟩
      rw [if_pos hr, if_pos hidle]
      simp [Lock.drop, KeyState.ofLock, hw]
    · rw [if_neg hr, if_neg]
      rintro ⟨hmode, hidle⟩
      refine hr ⟨?_, hidle.1⟩
      by_contra hmem
      exact hmode (hiff.2 ⟨hw, hmem⟩)

theorem release_run (iter : SetIter ProcId) (p : ProcId)
    (hconn : m.accessGranted.connected = true)
    (hk : m.keyStates k = some (KeyState.ofLock l.toLock c)) :
    (release iter p k).run m
      = if l.mode p = none then (.err (.releaseAccess p k), m)
        else (.ok (), m.settled k c ((l.leave p).1, (l.leave p).2.toLock)) := by
  have hiff := Lock.mode_eq_none_iff l.toLock p
  have hentry := handlingEntry_ofLock p hk
  by_cases hmode : l.mode p = none
  · rw [if_neg (fun h => h.1 hmode)] at hentry
    rw [release_run_no_entry iter p hk hentry, if_pos hmode, KeyState.ofLock_readers,
      if_neg (hiff.1 hmode).2]
  · rw [if_neg hmode]
    by_cases hidle : (l.drop p).Idle
    · rw [if_pos ⟨hmode, hidle⟩] at hentry
      have hrun := handleRequesting_run (m := m.setKeyState k (KeyState.ofLock (l.drop p) c))
        (k := k) (c := c) iter hidle hconn (by simp)
      rw [release_run_entry iter p hentry, hrun]
      simp [settled, FairLock.leave, Lock.drop]
    · rw [if_neg (fun h => hidle h.2)] at hentry
      -- `p` is one reader of several: a writer would leave the key free
      have hw : l.writer ≠ some p := by
        intro hw
        have hr : l.readers = ∅ := l.exclusive (by simp [hw])
        exact hidle (by simp [Lock.Idle, Lock.drop, hw, hr])
      have hr : p ∈ l.readers := by
        by_contra hr
        exact hmode (hiff.2 ⟨hw, hr⟩)
      rw [release_run_no_entry iter p hk hentry, KeyState.ofLock_readers, if_pos hr]
      simp only [settled, FairLock.leave, FairLock.settle_drop_of_held hidle]
      simp [KeyState.ofLock, Lock.drop, hw]

end

theorem missing_key_run {m : AccessManager} {k : KeyId} (h : m.keyStates k = none)
    (iter : SetIter ProcId) (p : ProcId) :
    (delete k).run m = (.err (.keyNotFound k), m) ∧
    (read iter p k).run m = (.err (.keyNotFound k), m) ∧
    (write p k).run m = (.err (.keyNotFound k), m) ∧
    (release iter p k).run m = (.err (.keyNotFound k), m) :=
  ⟨Exec.bind_err (getKeyState_none h), Exec.bind_err (getKeyState_none h),
    Exec.bind_err (getKeyState_none h), Exec.bind_err (getKeyState_none h)⟩

end AccessManager

end Soros
