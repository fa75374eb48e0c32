import Soros.AccessManager.History

set_option autoImplicit false

/-! # Fairness and progress

Requests on a key are granted in the order in which they were made, each exactly once
(`requests_eq_grants_append_queue`), and once nobody asks any more the holders of a key, by
leaving in any order, let in everyone who waits (`releases_drain`). -/

namespace Soros

open RwLock

namespace KeyState

/-- Neither held nor waited for. -/
structure Free (ks : KeyState) : Prop where
  readers : ks.readers = ∅
  writer : ks.writer = none
  pendingRequest : ks.pendingRequest = []

/-- The number of readers, one for a writer, and the length of the queue. -/
def load (ks : KeyState) : Nat :=
  ks.readers.card + (if ks.writer.isSome then 1 else 0) + ks.pendingRequest.length

theorem load_ofLock (l : Lock ProcId) (c : ProcId) : (ofLock l c).load = l.load := by
  cases hw : l.writer <;> simp [load, Lock.load, Lock.held, hw]

/-- A fair lock that nobody holds is free. -/
theorem free_ofLock {l : FairLock ProcId} {c : ProcId}
    (h : ∀ p, ¬ (ofLock l.toLock c).Holds p) : (ofLock l.toLock c).Free := by
  have hidle : l.Idle := by
    rw [Lock.idle_iff_mode]
    intro p
    by_contra hmode
    exact h p ((holds_ofLock l.toLock c p).2 hmode)
  exact ⟨hidle.1, hidle.2, by simp [FairLock.queue_of_idle hidle]⟩

end KeyState

namespace AccessManager

/-! ## First come, first served -/

/-- The request an event is the record of. -/
def Event.request? : Event → Option (ProcId × RequestType)
  | .requested p _ t => some (p, t)
  | _ => none

/-- The requests on `k` in the order in which they were made, without those rejected with
`KeyNotFound`. -/
def requestsOn (k : KeyId) (log : List Event) : List (ProcId × RequestType) :=
  (onKey k log).filterMap Event.request?

/-- The accesses granted on `k` in the order in which they were granted: at once or by a
message on the channel. -/
def grantsOn (k : KeyId) (log : List Event) : List (ProcId × RequestType) :=
  (onKey k log).filterMap Event.grant?

/-- The `pending_request` queue of a key; none when the key is not there. -/
def queueOf (o : Option KeyState) : List (ProcId × RequestType) :=
  match o with
  | some ks => ks.pendingRequest
  | none => []

theorem filterMap_notice_grant (k : KeyId) (c : ProcId) (es : List (ProcId × Mode)) :
    (es.map (notice k c)).filterMap Event.grant? = es.map pending := by
  induction es with
  | nil => rfl
  | cons e es ih =>
      rw [List.map_cons, List.map_cons, ← ih]
      rfl

theorem filterMap_notice_request (k : KeyId) (c : ProcId) (es : List (ProcId × Mode)) :
    (es.map (notice k c)).filterMap Event.request? = [] := by
  induction es with
  | nil => rfl
  | cons e es ih => exact ih

/-- What one move of a key grants and leaves queued is what was queued and what was asked
for, in that order. -/
theorem KeyMove.conserves {k : KeyId} {o o' : Option KeyState} {evs : List Event}
    (h : KeyMove k o evs o') :
    evs.filterMap Event.grant? ++ queueOf o' = queueOf o ++ evs.filterMap Event.request? := by
  cases h with
  | stay => simp
  | create p => rfl
  | delete l c hidle =>
      -- the whole queue is dropped, but a key that nobody holds has none
      have hempty : queueOf (some (KeyState.ofLock l.toLock c)) = [] := by
        simp [queueOf, FairLock.queue_of_idle hidle]
      rw [hempty]
      rfl
  | enter l c p m holder hask =>
      have hcons := congrArg (List.map pending) (l.ask_conserves p m)
      rw [if_pos hask, List.map_append, List.map_append] at hcons
      exact hcons
  | wait l c p m hask =>
      have hcons := congrArg (List.map pending) (l.ask_conserves p m)
      rw [if_neg (by simp [hask]), List.map_append, List.map_append] at hcons
      exact hcons
  | leave l c p =>
      have hcons := congrArg (List.map pending) (l.leave_conserves p)
      show (Event.released p k :: (l.leave p).1.map (notice k c)).filterMap Event.grant? ++ _
        = _ ++ (Event.released p k :: (l.leave p).1.map (notice k c)).filterMap Event.request?
      rw [List.filterMap_cons_none rfl, List.filterMap_cons_none rfl, filterMap_notice_grant,
        filterMap_notice_request, List.append_nil]
      simpa [queueOf] using hcons

/-- **First come, first served; nothing lost, nothing twice.** At every point of every run the
requests made on a key are the accesses granted on it so far followed by its queue. -/
theorem requests_eq_grants_append_queue (inputs : List Input) (k : KeyId) :
    requestsOn k (machine.run inputs).2
      = grantsOn k (machine.run inputs).2 ++ queueOf ((machine.run inputs).1.keyStates k) := by
  refine run_key (P := fun o log =>
    log.filterMap Event.request? = log.filterMap Event.grant? ++ queueOf o) rfl ?_ inputs
  intro o log evs o' _ ih hmove
  rw [List.filterMap_append, List.filterMap_append, ih, List.append_assoc, List.append_assoc,
    hmove.conserves]

/-! ## Progress -/

/-- The messages on `k` sent on the channel. -/
def Event.message? : Event → Option AccessGranted
  | .notified a => some a
  | _ => none

/-- The requests on `k` that messages sent on the channel have granted, in order. -/
def sentOn (k : KeyId) (log : List Event) : List (ProcId × RequestType) :=
  ((onKey k log).filterMap Event.message?).map fun a => (a.1, a.2.2.1)

/-- The only calls on `k` are releases by a process that holds it at that moment. -/
def ReleasesOnly (k : KeyId) (m : AccessManager) : Input → Prop
  | .call _ c => c.key = k →
      ∃ p ks, c = .release p k ∧ m.keyStates k = some ks ∧ ks.Holds p
  | .tryIter => True

/-- A release by a holder succeeds and tells those of its departure who get in. -/
theorem step_release {m : AccessManager} (hv : m.Valid) (iter : SetIter ProcId) {p c : ProcId}
    {k : KeyId} {l : FairLock ProcId} (hk : m.keyStates k = some (KeyState.ofLock l.toLock c))
    (hmode : l.mode p ≠ none) :
    m.step (.call iter (.release p k))
      = (m.settled k c ((l.leave p).1, (l.leave p).2.toLock),
        .released p k :: (l.leave p).1.map (notice k c)) := by
  have hrun := (release_run iter p hv.connected hk).trans (if_neg hmode)
  rw [step_of_run (c := .release p k) (Exec.bind_ok hrun), sentSince_settled, List.map_map]
  rfl

theorem filterMap_notice_message (k : KeyId) (c : ProcId) (es : List (ProcId × Mode)) :
    (es.map (notice k c)).filterMap Event.message? = es.map (grantMessage k c) := by
  induction es with
  | nil => rfl
  | cons e es ih =>
      rw [List.map_cons, List.map_cons, ← ih]
      rfl

theorem sentOn_append (k : KeyId) (log log' : List Event) :
    sentOn k (log ++ log') = sentOn k log ++ sentOn k log' := by
  simp [sentOn, onKey_append]

theorem sentOn_release (k : KeyId) (c p : ProcId) (es : List (ProcId × Mode)) :
    sentOn k (.released p k :: es.map (notice k c)) = es.map pending := by
  have hkey : onKey k (.released p k :: es.map (notice k c))
      = .released p k :: es.map (notice k c) := by
    refine List.filter_eq_self.2 fun e he => ?_
    rcases List.mem_cons.1 he with rfl | he
    · simp [Event.key]
    · obtain ⟨e', -, rfl⟩ := List.mem_map.1 he
      simp [notice, grantMessage, Event.key]
  rw [sentOn, hkey, List.filterMap_cons_none rfl, filterMap_notice_message, List.map_map]
  rfl

/-- Releases by holders drain the key: each lowers its load, and those who wait are told in
the order of the queue. -/
theorem drain {k : KeyId} {c : ProcId} (more : List Input) :
    ∀ (m : AccessManager) (l : FairLock ProcId), m.Valid →
      m.keyStates k = some (KeyState.ofLock l.toLock c) →
      machine.Along (ReleasesOnly k) m more →
      ∃ l' : FairLock ProcId,
        (machine.exec m more).1.keyStates k = some (KeyState.ofLock l'.toLock c) ∧
        more.countP (Input.on k) + l'.load ≤ l.load ∧
        sentOn k (machine.exec m more).2 ++ l'.queue.map pending = l.queue.map pending := by
  induction more with
  | nil => exact fun m l _ hk _ => ⟨l, hk, by simp, by simp [sentOn, onKey]⟩
  | cons i more ih =>
      intro m l hv hk halong
      obtain ⟨hi, hmore⟩ := halong
      rw [IOMachine.exec_cons, sentOn_append]
      -- inputs about other keys change neither the load nor the queue of this one
      cases hon : i.on k with
      | false =>
          obtain ⟨hstate, hevents⟩ := step_off hv hon
          have hsent : sentOn k (m.step i).2 = [] := by simp [sentOn, hevents]
          obtain ⟨l', hk', hload, hqueue⟩ := ih _ l (step_valid hv i) (hstate.trans hk) hmore
          refine ⟨l', hk', by simpa [hon] using hload, ?_⟩
          rw [show sentOn k (machine.step m i).2 = [] from hsent]
          exact hqueue
      | true =>
          cases i with
          | tryIter => cases hon
          | call iter call =>
              obtain ⟨p, ks, rfl, hks, hholds⟩ := hi (by simpa [Input.on] using hon)
              obtain rfl : KeyState.ofLock l.toLock c = ks := Option.some.inj (hk.symm.trans hks)
              have hmode := (KeyState.holds_ofLock l.toLock c p).1 hholds
              have hstep := step_release hv iter hk hmode
              have hk₁ : (m.step (.call iter (.release p k))).1.keyStates k
                  = some (KeyState.ofLock (l.leave p).2.toLock c) := by
                rw [hstep]
                simp [settled]
              obtain ⟨l', hk', hload, hqueue⟩ := ih _ (l.leave p).2 (step_valid hv _) hk₁ hmore
              have hless := FairLock.leave_load hmode
              refine ⟨l', hk', ?_, ?_⟩
              · rw [List.countP_cons_of_pos hon]
                omega
              · have hsent : sentOn k (machine.step m (.call iter (.release p k))).2
                    = (l.leave p).1.map pending :=
                  (congrArg (fun r => sentOn k r.2) hstep).trans (sentOn_release k c p _)
                rw [hsent, List.append_assoc]
                exact (congrArg _ hqueue).trans (by rw [← List.map_append, l.leave_conserves])

/-- **Progress.** In every state reached, a key that is held or waited for has a holder, and
every holder's release succeeds. From there on any releases by holders, however chosen, are at
most as many as the load of the key; each request queued at first is sent on the channel once,
in queue order, before those still queued; and when no holder is left to release, the key is
free and all of them have been sent. -/
theorem releases_drain (inputs : List Input) (k : KeyId) (ks : KeyState)
    (hk : (machine.run inputs).1.keyStates k = some ks) :
    (¬ ks.Free → ∃ p, ks.Holds p) ∧
    (∀ p iter, ks.Holds p → ((release iter p k).run (machine.run inputs).1).1 = .ok ()) ∧
    ∀ more, machine.Along (ReleasesOnly k) (machine.run inputs).1 more →
      ∃ ks', (machine.run (inputs ++ more)).1.keyStates k = some ks' ∧
        more.countP (Input.on k) + ks'.load ≤ ks.load ∧
        sentOn k (machine.exec (machine.run inputs).1 more).2 ++ ks'.pendingRequest
          = ks.pendingRequest ∧
        ((∀ p, ¬ ks'.Holds p) → ks'.Free ∧
          sentOn k (machine.exec (machine.run inputs).1 more).2 = ks.pendingRequest) := by
  have hv := run_valid inputs
  obtain ⟨l, c, rfl⟩ := hv.fair k ks hk
  refine ⟨fun hbusy => ?_, fun p iter hholds => ?_, fun more halong => ?_⟩
  · by_contra hno
    push Not at hno
    exact hbusy (KeyState.free_ofLock hno)
  · have hmode := (KeyState.holds_ofLock l.toLock c p).1 hholds
    rw [release_run iter p hv.connected hk, if_neg hmode]
  · obtain ⟨l', hk', hload, hqueue⟩ := drain more _ l hv hk halong
    refine ⟨KeyState.ofLock l'.toLock c, by rw [IOMachine.run_append]; exact hk', ?_, hqueue, ?_⟩
    · rw [KeyState.load_ofLock, KeyState.load_ofLock]
      exact hload
    · intro hno
      have hfree := KeyState.free_ofLock hno
      refine ⟨hfree, ?_⟩
      have hnil : l'.queue.map pending = [] := hfree.pendingRequest
      rw [hnil, List.append_nil] at hqueue
      exact hqueue

/-- A reader leaves, then the writer it held up, then the reader behind the writer. -/
theorem releases_drain_three :
    ∃ ks', (machine.run ([.call .ascending (.create 0 0), .call .ascending (.read 1 0),
        .call .ascending (.write 2 0), .call .ascending (.read 3 0)] ++
        [.call .ascending (.release 1 0), .call .ascending (.release 2 0),
          .call .ascending (.release 3 0)])).1.keyStates 0 = some ks' ∧
      3 + ks'.load ≤ 3 := by
  have hdrain := (releases_drain [.call .ascending (.create 0 0), .call .ascending (.read 1 0),
    .call .ascending (.write 2 0), .call .ascending (.read 3 0)] 0
    ⟨[(2, .write), (3, .read)], {1}, none, 0⟩ (by decide)).2.2
    [.call .ascending (.release 1 0), .call .ascending (.release 2 0),
      .call .ascending (.release 3 0)]
    ⟨fun _ => ⟨1, _, rfl, rfl, by decide⟩, fun _ => ⟨2, _, rfl, rfl, by decide⟩,
      fun _ => ⟨3, _, rfl, rfl, by decide⟩, trivial⟩
  obtain ⟨ks', hk', hload, -⟩ := hdrain
  exact ⟨ks', hk', hload⟩

end AccessManager

end Soros
