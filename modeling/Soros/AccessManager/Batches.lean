import Soros.AccessManager.History

set_option autoImplicit false

/-! # What a release lets in

`handle_requesting` walks the front of the queue while it changes it. Where `release` calls it,
nobody holds the key, and then it grants as much as may be granted at once: one write, or all
the reads up to the next write (`handleRequesting_maximal`).

Of several readers the last one to leave makes that call. Which one it is makes no difference:
in whatever order they leave, they leave the same manager behind (`releases_commute`). -/

namespace Soros

open RwLock

namespace AccessManager

/-! ## The largest batch -/

/-- The entry of the queue is a read. -/
def isReadRequest (e : ProcId × RequestType) : Bool := e.2 == .read

/-- The message that grants an entry of the queue. -/
def entryMessage (k : KeyId) (holder : ProcId) (e : ProcId × RequestType) : AccessGranted :=
  (e.1, k, e.2, holder)

/-- **The largest batch.** From `m`, where the key `k` is in the state `ks`, to `m'` the front of
the queue has been granted: one write, or the longest prefix of reads, with one message for each
entry in the order of the queue. The creator is named as the holder. -/
def GrantsFront (k : KeyId) (ks : KeyState) (m m' : AccessManager) : Prop :=
  match ks.pendingRequest with
  | [] => m' = m
  | (p, .write) :: rest =>
      m' = (m.sent [(p, k, .write, ks.creator)]).setKeyState k
        { ks with writer := some p, pendingRequest := rest }
  | (p, .read) :: rest =>
      let batch := ((p, .read) :: rest).takeWhile isReadRequest
      let left := ((p, .read) :: rest).dropWhile isReadRequest
      m' = (m.sent (batch.map (entryMessage k ks.creator))).setKeyState k
        { ks with readers := (batch.map Prod.fst).toFinset, pendingRequest := left } ∧
      ∀ e ∈ left.head?, e.2 = .write
  | _ => False

theorem isReadRequest_pending (e : ProcId × Mode) : isReadRequest (pending e) = Lock.isRead e := by
  obtain ⟨p, m⟩ := e
  cases m <;> rfl

theorem takeWhile_pending (q : List (ProcId × Mode)) :
    (q.map pending).takeWhile isReadRequest = (q.takeWhile Lock.isRead).map pending := by
  rw [List.takeWhile_map]
  congr 2
  exact funext isReadRequest_pending

theorem dropWhile_pending (q : List (ProcId × Mode)) :
    (q.map pending).dropWhile isReadRequest = (q.dropWhile Lock.isRead).map pending := by
  rw [List.dropWhile_map]
  congr 2
  exact funext isReadRequest_pending

/-- What follows the reads is a write. -/
theorem front_after_reads (q : List (ProcId × Mode)) :
    ∀ e ∈ ((q.dropWhile Lock.isRead).map pending).head?, e.2 = .write := by
  intro e he
  rw [List.head?_map] at he
  obtain ⟨⟨p, m⟩, hfront, rfl⟩ := Option.map_eq_some_iff.1 he
  have hnot := List.head?_dropWhile_not Lock.isRead q
  rw [hfront] at hnot
  cases m with
  | read => simp [Lock.isRead] at hnot
  | write => rfl

/-- The reads of the lock's queue, written down as entries of `pending_request`. -/
theorem settled_reads (m : AccessManager) (k : KeyId) (c : ProcId) (q : List (ProcId × Mode)) :
    m.settled k c (q.takeWhile Lock.isRead,
        ⟨((q.takeWhile Lock.isRead).map Prod.fst).toFinset, none, q.dropWhile Lock.isRead⟩)
      = (m.sent (((q.map pending).takeWhile isReadRequest).map (entryMessage k c))).setKeyState k
        ⟨(q.map pending).dropWhile isReadRequest,
          (((q.map pending).takeWhile isReadRequest).map Prod.fst).toFinset, none, c⟩ := by
  rw [takeWhile_pending, dropWhile_pending, List.map_map, List.map_map]
  rfl

/-- `handle_requesting` on a free lock. -/
theorem grantsFront_settled {m : AccessManager} {k : KeyId} {l : Lock ProcId} {c : ProcId}
    (hidle : l.Idle) (hk : m.keyStates k = some (KeyState.ofLock l c)) :
    GrantsFront k (KeyState.ofLock l c) m (m.settled k c (l.settle l.queue)) := by
  obtain ⟨readers, writer, queue⟩ := l
  obtain ⟨hr, hw⟩ := hidle
  dsimp only at hr hw
  subst hr hw
  have hfree : (Lock.mk ∅ none queue : Lock ProcId).Idle := ⟨rfl, rfl⟩
  cases queue with
  | nil =>
      show m.settled k c _ = m
      simp [settled, Lock.settle, setKeyState_self hk]
  | cons e queue =>
      obtain ⟨p, mode⟩ := e
      cases mode with
      | write =>
          show m.settled k c _ = _
          rw [Lock.settle_write_of_idle ⟨rfl, rfl⟩]
          rfl
      | read =>
          have hfront := front_after_reads ((p, .read) :: queue)
          rw [← dropWhile_pending] at hfront
          rw [Lock.settle_reads_of_idle hfree]
          exact ⟨settled_reads m k c ((p, .read) :: queue), hfront⟩

/-- **`handle_requesting` grants the largest batch.** In every run, when `release` goes on to
`handle_requesting`, it does so on a key that nobody holds. The call neither panics nor fails,
and it grants the front of the queue and nothing else. -/
theorem handleRequesting_maximal (inputs : List Input) (p : ProcId) (k : KeyId)
    (m' : AccessManager) (hentry : (machine.run inputs).1.handlingEntry p k = some m')
    (iter : SetIter ProcId) :
    (release iter p k).run (machine.run inputs).1 = (handleRequesting iter k).run m' ∧
    ((handleRequesting iter k).run m').1 = .ok () ∧
    ∃ ks, m'.keyStates k = some ks ∧ ks.writer = none ∧ ks.readers = ∅ ∧
      GrantsFront k ks m' ((handleRequesting iter k).run m').2 := by
  have hv : (machine.run inputs).1.Valid := run_valid inputs
  have hrun := release_run_entry iter p hentry
  cases hk : (machine.run inputs).1.keyStates k with
  | none => simp [handlingEntry, hk] at hentry
  | some ks =>
      obtain ⟨l, c, rfl⟩ := hv.fair k ks hk
      rw [handlingEntry_ofLock p hk] at hentry
      split at hentry
      · rename_i hfree
        cases hentry
        have hk' : ((machine.run inputs).1.setKeyState k (KeyState.ofLock (l.drop p) c)).keyStates k
            = some (KeyState.ofLock (l.drop p) c) := by simp
        have hhandle := handleRequesting_run
          (m := (machine.run inputs).1.setKeyState k (KeyState.ofLock (l.drop p) c)) iter hfree.2
          hv.connected hk'
        refine ⟨hrun, ?_, _, hk', hfree.2.2, hfree.2.1, ?_⟩
        · rw [hhandle]
        · rw [hhandle]
          exact grantsFront_settled hfree.2 hk'
      · cases hentry

/-- Two reads and then a write wait for the writer. -/
def waitingInputs : List Input :=
  [.create 0 0, .write 1 0, .read 2 0, .read 3 0, .write 4 0].map (Input.call .ascending)

/-- The writer leaves. -/
theorem handleRequesting_maximal_waiting :
    ((handleRequesting .ascending 0).run ((machine.run waitingInputs).1.setKeyState 0
      ⟨[(2, .read), (3, .read), (4, .write)], ∅, none, 0⟩)).1 = .ok () :=
  (handleRequesting_maximal waitingInputs 1 0 _
    ((handlingEntry_some 1 (show (machine.run waitingInputs).1.keyStates 0
      = some ⟨[(2, .read), (3, .read), (4, .write)], ∅, some 1, 0⟩ by decide)).trans (if_pos rfl))
    .ascending).2.1

/-! ## What a call lets in -/

/-- The entries at the front of a queue that may be granted at once: one write, or the reads up
to the next write. -/
def front : List (ProcId × RequestType) → List (ProcId × RequestType)
  | (p, .write) :: _ => [(p, .write)]
  | queue => queue.takeWhile isReadRequest

/-- The messages that a release of `p` sends: to the front of the queue, if `p` is the last one
to hold the key. -/
def letIn (m : AccessManager) (p : ProcId) (k : KeyId) : List AccessGranted :=
  match m.keyStates k with
  | none => []
  | some ks =>
      if ks.writer = some p ∨ ks.readers = {p} then
        (front ks.pendingRequest).map (entryMessage k ks.creator)
      else []

/-- The messages that a call sends. -/
def Call.letsIn (m : AccessManager) : Call → List AccessGranted
  | .release p k => m.letIn p k
  | _ => []

theorem settle_front {l : Lock ProcId} (hidle : l.Idle) (q : List (ProcId × Mode)) :
    (l.settle q).1.map pending = front (q.map pending) := by
  cases q with
  | nil => rfl
  | cons e q =>
      obtain ⟨p, mode⟩ := e
      cases mode with
      | write =>
          rw [Lock.settle_write_of_idle hidle]
          rfl
      | read =>
          rw [Lock.settle_reads_of_idle hidle]
          exact (takeWhile_pending _).symm

theorem letIn_ofLock {m : AccessManager} {k : KeyId} {l : FairLock ProcId} {c : ProcId}
    (hk : m.keyStates k = some (KeyState.ofLock l.toLock c)) (p : ProcId) :
    m.letIn p k = if l.mode p = none then [] else (l.leave p).1.map (grantMessage k c) := by
  have hfrees := l.drop_frees_iff p
  have hletIn : m.letIn p k = if l.writer = some p ∨ l.readers = {p} then
      (front (l.queue.map pending)).map (entryMessage k c) else [] := by
    unfold letIn
    rw [hk]
    rfl
  rw [hletIn]
  by_cases hmode : l.mode p = none
  · rw [if_pos hmode, if_neg fun h => (hfrees.2 h).1 hmode]
  · rw [if_neg hmode]
    show _ = ((l.drop p).settle l.queue).1.map (grantMessage k c)
    by_cases hidle : (l.drop p).Idle
    · rw [if_pos (hfrees.1 ⟨hmode, hidle⟩), ← settle_front hidle, List.map_map]
      rfl
    -- somebody else still holds the key
    · rw [if_neg fun h => hidle (hfrees.2 h).2, FairLock.settle_drop_of_held hidle]
      rfl

/-- **What a call lets in** can be read off the key before it. -/
theorem Effect.messages_eq {m : AccessManager} {c : Call} {o' : Option KeyState}
    {out : Outcome AccessManagerError (Option ProcId)} {messages : List AccessGranted}
    (h : Effect c (m.keyStates c.key) out messages o') : messages = c.letsIn m := by
  generalize hk : m.keyStates c.key = o at h
  cases h with
  | missing =>
      cases c with
      | release p k => simp [Call.letsIn, letIn, show m.keyStates k = none from hk]
      | create | delete | read | write => rfl
  | wait _ _ _ _ mode => cases mode <;> rfl
  | unheld k l c p hmode => exact ((letIn_ofLock hk p).trans (if_pos hmode)).symm
  | release k l c p hmode => exact ((letIn_ofLock hk p).trans (if_neg hmode)).symm
  | present | create | busy | delete | read | write => rfl

/-! ## The order in which readers leave -/

/-- Processes release the key one after the other, as long as that succeeds; each call has an
order of its own in which the readers are walked. -/
def releaseAll (k : KeyId) : List (SetIter ProcId × ProcId) → Method Unit
  | [] => pure ()
  | (iter, p) :: calls => do
      release iter p k
      releaseAll k calls

/-- The processes are those that read the key, each of them once. -/
structure Departs (calls : List (SetIter ProcId × ProcId)) (readers : Finset ProcId) : Prop where
  nodup : (calls.map Prod.snd).Nodup
  all : (calls.map Prod.snd).toFinset = readers

theorem Departs.cons {iter : SetIter ProcId} {p : ProcId} {calls : List (SetIter ProcId × ProcId)}
    {readers : Finset ProcId} (h : Departs ((iter, p) :: calls) readers) :
    p ∈ readers ∧ Departs calls (readers.erase p) := by
  obtain ⟨hnew, hnodup⟩ := List.nodup_cons.1 h.nodup
  have hall := h.all
  rw [List.map_cons, List.toFinset_cons] at hall
  refine ⟨hall ▸ Finset.mem_insert_self _ _, hnodup, ?_⟩
  rw [← hall, Finset.erase_insert (by simpa using hnew)]

/-- **All readers leave.** The last of them lets in whom the free lock lets in. -/
theorem releaseAll_run {k : KeyId} {c : ProcId} (calls : List (SetIter ProcId × ProcId)) :
    ∀ (l : FairLock ProcId) (m : AccessManager), l.readers ≠ ∅ → l.writer = none →
      Departs calls l.readers → m.accessGranted.connected = true →
      m.keyStates k = some (KeyState.ofLock l.toLock c) →
      (releaseAll k calls).run m
        = (.ok (), m.settled k c ((Lock.mk ∅ none l.queue).settle l.queue)) := by
  induction calls with
  | nil =>
      intro l m hreaders _ hdeparts
      exact absurd hdeparts.all.symm hreaders
  | cons call calls ih =>
      intro l m hreaders hwriter hdeparts hconn hk
      obtain ⟨iter, p⟩ := call
      obtain ⟨hp, hrest⟩ := hdeparts.cons
      have hmode : l.mode p ≠ none := fun hno => ((l.mode_eq_none_iff p).1 hno).2 hp
      have hrelease := release_run iter p hconn hk
      rw [if_neg hmode] at hrelease
      unfold releaseAll
      rw [Exec.bind_ok hrelease]
      by_cases hlast : l.readers.erase p = ∅
      · -- the last one: nobody is left to release the key
        have hdrop : l.drop p = ⟨∅, none, l.queue⟩ := by simp [Lock.drop, hwriter, hlast]
        obtain rfl : calls = [] := by
          have hnone := hrest.all
          rw [hlast] at hnone
          simpa using hnone
        have hleave : ((l.leave p).1, (l.leave p).2.toLock)
            = (Lock.mk ∅ none l.queue).settle l.queue := by
          show (l.drop p).settle l.queue = _
          rw [hdrop]
        rw [hleave]
        rfl
      -- somebody still reads: nobody is let in, and the rest of them leave
      · have hheld : ¬ (l.drop p).Idle := fun hidle => hlast hidle.1
        have hleave : (l.drop p).settle l.queue = ([], l.drop p) := FairLock.settle_drop_of_held hheld
        have hlock : (l.leave p).2.toLock = l.drop p := by
          show ((l.drop p).settle l.queue).2 = _
          rw [hleave]
        have hkeeps : m.settled k c ((l.leave p).1, (l.leave p).2.toLock)
            = m.setKeyState k (KeyState.ofLock (l.leave p).2.toLock c) := by
          show m.settled k c (((l.drop p).settle l.queue).1, _) = _
          rw [hleave]
          simp [settled]
        rw [hkeeps]
        have hnext := ih (l.leave p).2 (m.setKeyState k (KeyState.ofLock (l.leave p).2.toLock c))
          (by rw [hlock]; exact hlast) (by rw [hlock]; simp [Lock.drop, hwriter])
          (by rw [hlock]; exact hrest) hconn (by simp)
        rw [hnext]
        have hqueue : (l.leave p).2.queue = l.queue := by rw [hlock]; rfl
        rw [hqueue]
        simp [settled]

/-- **Readers may leave in any order.** In every run, when all the processes that read a key
release it, each call succeeds, and the manager that they leave behind, its channel included,
depends neither on the order of the calls nor on that in which readers are walked. -/
theorem releases_commute (inputs : List Input) (k : KeyId) (ks : KeyState)
    (hk : (machine.run inputs).1.keyStates k = some ks) (hreaders : ks.readers ≠ ∅)
    (calls calls' : List (SetIter ProcId × ProcId)) (hcalls : Departs calls ks.readers)
    (hcalls' : Departs calls' ks.readers) :
    ∃ m', (releaseAll k calls).run (machine.run inputs).1 = (.ok (), m') ∧
      (releaseAll k calls').run (machine.run inputs).1 = (.ok (), m') := by
  have hv : (machine.run inputs).1.Valid := run_valid inputs
  obtain ⟨l, c, rfl⟩ := hv.fair k ks hk
  have hwriter : l.writer = none := by
    by_contra hno
    exact hreaders (l.exclusive hno)
  exact ⟨_, releaseAll_run calls l _ hreaders hwriter hcalls hv.connected hk,
    releaseAll_run calls' l _ hreaders hwriter hcalls' hv.connected hk⟩

/-- Two readers, one of which waits to write. -/
theorem releases_commute_two :
    ∃ m', (releaseAll 0 [(.ascending, 1), (.ascending, 2)]).run
        (machine.run ([.create 0 0, .read 1 0, .read 2 0, .write 1 0].map
          (Input.call .ascending))).1 = (.ok (), m') ∧
      (releaseAll 0 [(.ascending, 2), (.ascending, 1)]).run
        (machine.run ([.create 0 0, .read 1 0, .read 2 0, .write 1 0].map
          (Input.call .ascending))).1 = (.ok (), m') :=
  releases_commute _ 0 ⟨[(1, .write)], {2, 1}, none, 0⟩ (by decide) (by decide) _ _
    ⟨by decide, by decide⟩ ⟨by decide, by decide⟩

end AccessManager

end Soros
