import Soros.AccessManager.History

set_option autoImplicit false

/-! # Who holds a key, and whom readers are sent to

The manager answers and notifies; the processes keep track of what they were told. The two
views agree at every point of every run: a process is registered on a key exactly when the
last it was told about the key is a grant (`registered_iff_told`).

On top of that view, `Sound` says of each single event what can be told from the events
before it. It settles whom a granted read is sent to (`read_names_holder`): a read let in at
once goes to a present reader, a read let in from the queue to the creator of the key. The two
rules differ in that the present readers include the new one (`namesAsQueued_iff`). -/

namespace Soros

open RwLock

namespace AccessManager

/-! ## What a process was told -/

/-- What the event tells `p` about its access: `some (some t)` a grant, `some none` the end of
it. -/
def Event.news (p : ProcId) : Event → Option (Option RequestType)
  | .answered q _ t _ => if q = p then some (some t) else none
  | .notified (q, _, t, _) => if q = p then some (some t) else none
  | .released q _ => if q = p then some none else none
  | _ => none

/-- The latest news of `p`. -/
def latest (p : ProcId) (log : List Event) : Option (Option RequestType) :=
  log.reverse.findSome? (Event.news p)

/-- The access `p` has, going by the latest news. -/
def told (p : ProcId) (log : List Event) : Option RequestType := (latest p log).getD none

def Event.creator? : Event → Option ProcId
  | .created p _ => some p
  | _ => none

/-- The process that created the key, going by the latest creation. -/
def creatorOf (log : List Event) : Option ProcId := log.reverse.findSome? Event.creator?

theorem latest_append (p : ProcId) (log log' : List Event) :
    latest p (log ++ log') = (latest p log').or (latest p log) := by
  simp [latest]

theorem latest_cons (p : ProcId) (e : Event) (log : List Event) :
    latest p (e :: log) = (latest p log).or (e.news p) := by
  rw [← List.singleton_append, latest_append]
  cases h : e.news p <;> simp [latest, h]

theorem told_append (p : ProcId) (log log' : List Event) :
    told p (log ++ log') = (latest p log').getD (told p log) := by
  rw [told, latest_append, told]
  cases latest p log' <;> rfl

theorem creatorOf_append (log log' : List Event) :
    creatorOf (log ++ log') = (creatorOf log').or (creatorOf log) := by
  simp [creatorOf]

theorem creatorOf_notices (k : KeyId) (c : ProcId) (es : List (ProcId × Mode)) :
    creatorOf (es.map (notice k c)) = none := by
  simp only [creatorOf, List.findSome?_eq_none_iff, List.mem_reverse, List.mem_map]
  rintro _ ⟨e, -, rfl⟩
  rfl

/-- The access of `p` on a key; none when the key is not there. -/
def accessOf (o : Option KeyState) (p : ProcId) : Option RequestType :=
  o.bind fun ks =>
    if ks.writer = some p then some .write else if p ∈ ks.readers then some .read else none

theorem accessOf_ofLock (l : Lock ProcId) (c p : ProcId) :
    accessOf (some (KeyState.ofLock l c)) p = (l.mode p).map requestOf := by
  show (if l.writer = some p then some RequestType.write
    else if p ∈ l.readers then some .read else none) = _
  unfold Lock.mode
  split
  · rfl
  · split <;> rfl

/-- Notices tell the processes what the lock let them do. -/
theorem latest_notices (k : KeyId) (c p : ProcId) (es : List (ProcId × Mode)) :
    ∀ f : ProcId → Option Mode,
      (latest p (es.map (notice k c))).getD ((f p).map requestOf)
        = ((es.foldl Lock.granted f) p).map requestOf := by
  induction es with
  | nil => exact fun f => rfl
  | cons e es ih =>
      intro f
      have hgranted : ((Lock.granted f e) p).map requestOf
          = ((notice k c e).news p).getD ((f p).map requestOf) := by
        by_cases hp : p = e.1
        · subst hp
          simp [Lock.granted, notice, grantMessage, Event.news]
        · simp [Lock.granted, notice, grantMessage, Event.news, Function.update_of_ne hp,
            Ne.symm hp]
      rw [List.map_cons, List.foldl_cons, ← ih, latest_cons, hgranted]
      cases latest p (es.map (notice k c)) <;> rfl

/-- What a move of a key tells a process is what it does to its access. -/
theorem KeyMove.told {k : KeyId} {o o' : Option KeyState} {evs : List Event}
    (h : KeyMove k o evs o') (p : ProcId) :
    (latest p evs).getD (accessOf o p) = accessOf o' p := by
  cases h with
  | stay => rfl
  | create q => rfl
  | delete l c hidle =>
      rw [accessOf_ofLock, (l.idle_iff_mode).1 hidle p]
      rfl
  | enter l c q m holder hask =>
      have hmode := congrFun (l.ask_mode q m) p
      rw [if_pos hask] at hmode
      rw [accessOf_ofLock, accessOf_ofLock, hmode]
      by_cases hp : p = q
      · subst hp
        simp [latest, Event.news]
      · simp [latest, Event.news, Ne.symm hp, Function.update_of_ne hp]
  | wait l c q m hask =>
      have hmode := congrFun (l.ask_mode q m) p
      rw [if_neg (by simp [hask])] at hmode
      rw [accessOf_ofLock, accessOf_ofLock, hmode]
      rfl
  | leave l c q hmode =>
      rw [accessOf_ofLock, accessOf_ofLock, l.leave_mode q, ← latest_notices k c, latest_cons]
      by_cases hp : p = q
      · subst hp
        cases latest p ((l.leave p).1.map (notice k c)) <;> simp [Event.news]
      · cases latest p ((l.leave q).1.map (notice k c)) <;>
          simp [Event.news, Ne.symm hp, Function.update_of_ne hp]

/-- A process that has access keeps it through a move in which it does not release the key. -/
theorem KeyMove.keeps {k : KeyId} {o o' : Option KeyState} {evs : List Event} {p : ProcId}
    (h : KeyMove k o evs o') (hp : accessOf o p ≠ none) (hno : .released p k ∉ evs) :
    accessOf o' p ≠ none := by
  rw [← h.told p]
  cases hnews : latest p evs with
  | none => exact hp
  | some news =>
      intro hlost
      obtain rfl : news = none := hlost
      obtain ⟨e, he, hnone⟩ := List.exists_of_findSome?_eq_some hnews
      rw [List.mem_reverse] at he
      have hkey := h.key e he
      cases e with
      | released q k' =>
          obtain rfl : q = p := by
            by_contra hne
            simp [Event.news, hne] at hnone
          obtain rfl : k' = k := hkey
          exact hno he
      | created | deleted | requested => cases hnone
      | answered q _ t _ => by_cases hq : q = p <;> simp [Event.news, hq] at hnone
      | notified a => by_cases hq : a.1 = p <;> simp [Event.news, hq] at hnone

theorem released_not_asked (c : Call) (o : Outcome AccessManagerError (Option ProcId))
    (p : ProcId) (k : KeyId) : .released p k ∉ c.asked o := by
  intro h
  unfold Call.asked at h
  split at h <;> simp at h

theorem released_of_completed {c : Call} {o : Outcome AccessManagerError (Option ProcId)}
    {p : ProcId} {k : KeyId} (h : .released p k ∈ c.completed o) : c = .release p k := by
  unfold Call.completed at h
  split at h <;> simp at h
  rw [h.1, h.2]

/-- Only a release by the process itself is recorded as its release. -/
theorem call_of_released {m : AccessManager} {i : Input} {p : ProcId} {k : KeyId}
    (h : .released p k ∈ (m.step i).2) : ∃ iter, i = .call iter (.release p k) := by
  cases i with
  | tryIter => cases h
  | call iter c =>
      rcases List.mem_append.1 h with h | h
      · rcases List.mem_append.1 h with h | h
        · exact absurd h (released_not_asked c _ p k)
        · exact ⟨iter, by rw [released_of_completed h]⟩
      · obtain ⟨a, -, ha⟩ := List.mem_map.1 h
        cases ha

/-- `p` is registered on `k`. -/
def Registered (m : AccessManager) (p : ProcId) (k : KeyId) : Prop :=
  ∃ ks, m.keyStates k = some ks ∧ ks.Holds p

/-- `p` is registered on `k` as its writer. -/
def RegisteredWriter (m : AccessManager) (p : ProcId) (k : KeyId) : Prop :=
  ∃ ks, m.keyStates k = some ks ∧ ks.writer = some p

theorem registered_iff_accessOf (m : AccessManager) (p : ProcId) (k : KeyId) :
    m.Registered p k ↔ accessOf (m.keyStates k) p ≠ none := by
  cases hk : m.keyStates k with
  | none => simp [Registered, accessOf, hk]
  | some ks =>
      by_cases hw : ks.writer = some p <;> simp [Registered, KeyState.Holds, accessOf, hk, hw]

theorem registeredWriter_iff_accessOf (m : AccessManager) (p : ProcId) (k : KeyId) :
    m.RegisteredWriter p k ↔ accessOf (m.keyStates k) p = some .write := by
  cases hk : m.keyStates k with
  | none => simp [RegisteredWriter, accessOf, hk]
  | some ks => simp [RegisteredWriter, accessOf, hk]

theorem told_eq_some_iff (p : ProcId) (log : List Event) (t : RequestType) :
    told p log = some t ↔ latest p log = some (some t) := by
  unfold told
  cases latest p log <;> simp

/-! ## What the events of a run tell -/

/-- What the events before it tell about a single event of a key. -/
def Sound (pre : List Event) : Event → Prop
  | .answered p _ .read holder => ∃ h, holder = some h ∧ (h ≠ p → told h pre = some .read)
  | .notified (_, _, .read, holder) => creatorOf pre = some holder
  | .released w _ => told w pre = some .write → ∀ q, q ≠ w → told q pre = none
  | _ => True

/-- What the events on a key tell, next to its state: what each process was told, who created
it, and that each single event is sound. -/
structure Traced (o : Option KeyState) (log : List Event) : Prop where
  told : ∀ p, AccessManager.told p log = accessOf o p
  creator : ∀ ks, o = some ks → creatorOf log = some ks.creator
  sound : EachAfter Sound log

theorem Traced.sound_enter {l : FairLock ProcId} {c p : ProcId} {m : Mode} {k : KeyId}
    {holder : Option ProcId} {log : List Event}
    (h : Traced (some (KeyState.ofLock l.toLock c)) log) (hask : (l.ask p m).1 = true)
    (hholder : m = .read → ∃ q ∈ (l.ask p m).2.readers, holder = some q) :
    Sound (log ++ [.requested p k (requestOf m)]) (.answered p k (requestOf m) holder) := by
  cases m with
  | write => trivial
  | read =>
      obtain ⟨q, hq, rfl⟩ := hholder rfl
      refine ⟨q, rfl, fun hne => ?_⟩
      -- `q` is a reader besides `p`, and was one before
      have hmode := congrFun (l.ask_mode p .read) q
      rw [if_pos hask, Function.update_of_ne hne] at hmode
      rw [told_append, h.told, accessOf_ofLock, ← hmode,
        (Lock.mode_eq_read_iff (l.ask p .read).2.exclusive q).2 hq]
      rfl

theorem Traced.sound_leave {l : FairLock ProcId} {c p : ProcId} {k : KeyId} {log : List Event}
    (h : Traced (some (KeyState.ofLock l.toLock c)) log) : Sound log (.released p k) := by
  intro hp q hq
  rw [h.told, accessOf_ofLock] at hp ⊢
  cases hm : l.mode p with
  | none => simp [hm] at hp
  | some m =>
      rw [hm] at hp
      obtain rfl : m = .write := requestOf_injective (Option.some.inj hp)
      have hw := (l.mode_eq_write_iff p).1 hm
      have hr : l.readers = ∅ := l.exclusive (by simp [hw])
      have hnone : l.mode q = none := by
        rw [Lock.mode_eq_none_iff]
        simp [hw, hr, Ne.symm hq]
      rw [hnone]
      rfl

/-- A read let in from the queue is told the creator. -/
theorem sound_notice {log pre : List Event} {k : KeyId} {c : ProcId} (e : ProcId × Mode)
    (hcreator : creatorOf log = some c) (hpre : creatorOf pre = none) :
    Sound (log ++ pre) (notice k c e) := by
  obtain ⟨q, m⟩ := e
  cases m with
  | write => trivial
  | read =>
      show creatorOf (log ++ pre) = some c
      rw [creatorOf_append, hpre, hcreator]
      rfl

theorem sound_notices {log : List Event} {k : KeyId} {c : ProcId}
    (hcreator : creatorOf log = some c) (es : List (ProcId × Mode)) :
    ∀ pre, creatorOf pre = none →
      EachAfter (fun pre' e => Sound (log ++ (pre ++ pre')) e) (es.map (notice k c)) := by
  induction es with
  | nil => exact fun pre _ => .nil
  | cons e es ih =>
      intro pre hpre
      refine .cons (by simpa using sound_notice e hcreator hpre) ?_
      have hpre' : creatorOf (pre ++ [notice k c e]) = none := by
        rw [creatorOf_append, hpre]
        rfl
      simpa using ih (pre ++ [notice k c e]) hpre'

theorem KeyMove.creator {k : KeyId} {o o' : Option KeyState} {log evs : List Event}
    (hmove : KeyMove k o evs o') (h : ∀ ks, o = some ks → creatorOf log = some ks.creator) :
    ∀ ks, o' = some ks → creatorOf (log ++ evs) = some ks.creator := by
  intro ks hks
  rw [creatorOf_append]
  cases hmove with
  | stay => exact h ks hks
  | create p => cases hks; rfl
  | delete => cases hks
  | enter | wait => cases hks; exact (h _ rfl).trans rfl
  | leave l c p =>
      cases hks
      have hnone : creatorOf (.released p k :: (l.leave p).1.map (notice k c)) = none := by
        rw [← List.singleton_append, creatorOf_append, creatorOf_notices]
        rfl
      rw [hnone]
      exact (h _ rfl).trans rfl

theorem KeyMove.traced {k : KeyId} {o o' : Option KeyState} {log evs : List Event}
    (hmove : KeyMove k o evs o') (h : Traced o log) : Traced o' (log ++ evs) := by
  refine ⟨fun p => by rw [told_append, h.told, hmove.told], hmove.creator h.creator,
    h.sound.append ?_⟩
  cases hmove with
  | stay => exact .nil
  | create | delete | wait => exact .cons trivial .nil
  | enter l c p m holder hask hholder =>
      exact .cons trivial (.cons (h.sound_enter hask hholder) .nil)
  | leave l c p =>
      refine .cons (by simpa using h.sound_leave) ?_
      exact sound_notices (h.creator _ rfl) _ [.released p k] rfl

theorem run_traced (inputs : List Input) (k : KeyId) :
    Traced ((machine.run inputs).1.keyStates k) (onKey k (machine.run inputs).2) := by
  refine run_key (P := Traced) ⟨fun _ => rfl, (fun _ h => by cases h), .nil⟩ ?_ inputs
  exact fun o log evs o' _ h hmove => hmove.traced h

/-- **Holders are those who were told so.** A process is registered on a key exactly when the
latest news it had of the key is a grant, and as the writer exactly when that grant is a Write.
Nothing but its own release takes its access away. -/
theorem registered_iff_told (inputs : List Input) (k : KeyId) (p : ProcId) :
    ((machine.run inputs).1.Registered p k
      ↔ ∃ t, latest p (onKey k (machine.run inputs).2) = some (some t)) ∧
    ((machine.run inputs).1.RegisteredWriter p k
      ↔ latest p (onKey k (machine.run inputs).2) = some (some .write)) ∧
    ∀ i, (∀ iter, i ≠ .call iter (.release p k)) → (machine.run inputs).1.Registered p k →
      ((machine.run inputs).1.step i).1.Registered p k := by
  have htold := (run_traced inputs k).told p
  refine ⟨?_, ?_, fun i hi hp => ?_⟩
  · rw [registered_iff_accessOf, ← htold, Option.ne_none_iff_exists']
    exact exists_congr fun t => told_eq_some_iff p _ t
  · rw [registeredWriter_iff_accessOf, ← htold]
    exact told_eq_some_iff p _ _
  · rw [registered_iff_accessOf] at hp ⊢
    refine (step_onKey (run_valid inputs) i k).keeps hp fun hreleased => ?_
    obtain ⟨iter, hcall⟩ := call_of_released (List.mem_of_mem_filter hreleased)
    exact hi iter hcall

/-- `registered_iff_told` for a process that waits for its turn to write: the grant reaches it
through the release of the reader before it. -/
example :
    latest 2 (onKey 0 (machine.run [.call .ascending (.create 0 0), .call .ascending (.read 1 0),
      .call .ascending (.write 2 0), .call .ascending (.release 1 0)]).2) = some (some .write) := by
  decide

/-! ## Whom a reader is sent to -/

/-- `w` gives up a Write on the key after the events `pre`, and after that, in `mid`, no Write
is granted and the key is not deleted: `w` is the last that wrote. -/
structure LastWriter (pre : List Event) (w : ProcId) (mid : List Event) : Prop where
  wrote : told w pre = some .write
  noWrite : ∀ e ∈ mid, ∀ p, e.grant? ≠ some (p, .write)
  noDelete : ∀ e ∈ mid, ∀ k, e ≠ .deleted k

/-- A granted read: the reader and the holder it is sent to. -/
def Event.readGrant? : Event → Option (ProcId × ProcId)
  | .answered p _ .read (some holder) => some (p, holder)
  | .notified (p, _, .read, holder) => some (p, holder)
  | _ => none

/-- Every read granted after the last writer has left and before the next one enters is sent
to that writer or to a process granted a read in between. -/
def SentToUpToDate (k : KeyId) (log : List Event) : Prop :=
  ∀ pre w mid g post p holder, log = pre ++ .released w k :: (mid ++ g :: post) →
    LastWriter pre w mid → g.readGrant? = some (p, holder) →
    holder = w ∨ ∃ e ∈ mid, e.grant? = some (holder, .read)

/-- The calls of `test_fairness`: the write of `3` and the reads of `2` and `4` wait. -/
def fairnessCalls : List Input :=
  [.create 1 0, .read 1 0, .write 3 0, .read 2 0, .release 1 0, .read 4 0, .release 3 0].map
    (Input.call .ascending)

/-- The reads let in by the release of the writer `3` are sent to the creator `1`, which has
not read since. -/
theorem fairnessCalls_sends_to_creator :
    ¬ SentToUpToDate 0 (onKey 0 (machine.run fairnessCalls).2) := by
  intro h
  have hgrant := h [.created 1 0, .requested 1 0 .read, .answered 1 0 .read (some 1),
    .requested 3 0 .write, .requested 2 0 .read, .released 1 0, .notified (3, 0, .write, 1),
    .requested 4 0 .read] 3 [] (.notified (2, 0, .read, 1)) [.notified (4, 0, .read, 1)] 2 1
    (by decide) ⟨by decide, by simp, by simp⟩ rfl
  simp at hgrant

theorem Event.grant_of_news {e : Event} {p : ProcId} {t : RequestType}
    (h : e.news p = some (some t)) : e.grant? = some (p, t) := by
  cases e with
  | created | deleted | requested => cases h
  | answered q _ t' _ => by_cases hq : q = p <;> simp_all [Event.news, Event.grant?]
  | notified a => by_cases hq : a.1 = p <;> simp_all [Event.news, Event.grant?]
  | released q _ => by_cases hq : q = p <;> simp [Event.news, hq] at h

/-- Whoever reads once the last writer has left was let in after it. -/
theorem granted_since {pre mid : List Event} {w q : ProcId} {k : KeyId}
    (hw : told w pre = some .write) (hsound : Sound pre (.released w k))
    (hq : told q (pre ++ .released w k :: mid) = some .read) :
    ∃ e ∈ mid, e.grant? = some (q, .read) := by
  rw [told_eq_some_iff, latest_append, latest_cons] at hq
  cases hmid : latest q mid with
  | some news =>
      obtain rfl : news = some .read := by simpa [hmid] using hq
      obtain ⟨e, he, hnews⟩ := List.exists_of_findSome?_eq_some hmid
      exact ⟨e, List.mem_reverse.1 he, Event.grant_of_news hnews⟩
  | none =>
      -- the last news of `q` would be older, but next to the writer nobody else had access
      by_cases hqw : w = q
      · simp [hmid, Event.news, hqw] at hq
      · have hold : latest q pre = some (some .read) := by
          simpa [hmid, Event.news, hqw] using hq
        have hnone := hsound hw q (Ne.symm hqw)
        rw [(told_eq_some_iff q pre _).2 hold] at hnone
        cases hnone

/-- **Whom a reader is sent to.** After the last writer has left and before the next one
enters, a read let in from the queue is sent to the creator of the key. A read let in at once
is sent to a process granted a read in between, unless it is sent to the reader itself. -/
theorem read_names_holder (inputs : List Input) (k : KeyId) (pre mid post : List Event)
    (w : ProcId) (g : Event)
    (hlog : onKey k (machine.run inputs).2 = pre ++ .released w k :: (mid ++ g :: post))
    (hw : LastWriter pre w mid) :
    (∀ p holder, g = .notified (p, k, .read, holder) →
      creatorOf (pre ++ .released w k :: mid) = some holder) ∧
    ∀ p answer, g = .answered p k .read answer → ∃ holder, answer = some holder ∧
      (holder ≠ p → ∃ e ∈ mid, e.grant? = some (holder, .read)) := by
  have hsound := (run_traced inputs k).sound
  have hleave : Sound pre (.released w k) := hsound pre _ _ hlog
  have hgrant : Sound (pre ++ .released w k :: mid) g :=
    hsound _ _ post (by simpa using hlog)
  refine ⟨?_, ?_⟩
  · rintro p holder rfl
    exact hgrant
  · rintro p answer rfl
    obtain ⟨holder, rfl, hreader⟩ := hgrant
    exact ⟨holder, rfl, fun hne => granted_since hw.wrote hleave (hreader hne)⟩

/-- Two reads after a write: the second reader is sent to the first. -/
theorem read_names_holder_second :
    ∃ holder, some 2 = some holder ∧ (holder ≠ 3 → ∃ e ∈ [Event.requested 2 0 .read,
      .answered 2 0 .read (some 2), .requested 3 0 .read], e.grant? = some (holder, .read)) :=
  (read_names_holder ([.create 0 0, .write 1 0, .release 1 0, .read 2 0, .read 3 0].map
      (Input.call .ascending)) 0
    [.created 0 0, .requested 1 0 .write, .answered 1 0 .write none]
    [.requested 2 0 .read, .answered 2 0 .read (some 2), .requested 3 0 .read] [] 1
    (.answered 3 0 .read (some 2)) (by decide)
    ⟨by decide, by simp [Event.grant?], by simp⟩).2 3 (some 2) rfl

/-! ## Immediate and queued reads -/

/-- `h` is a process that `holder` may return, in some order of the readers. -/
def MayName (ks : KeyState) (h : ProcId) : Prop := ∃ iter, ks.holder iter = h

theorem mayName_readers {ks : KeyState} (hw : ks.writer = none) (hr : ks.readers ≠ ∅)
    (h : ProcId) : MayName ks h ↔ h ∈ ks.readers := by
  constructor
  · rintro ⟨iter, rfl⟩
    rw [KeyState.holder, hw]
    dsimp only
    rw [if_pos hr]
    exact iter.first_mem _ (Finset.nonempty_iff_ne_empty.2 hr)
  · intro hmem
    refine ⟨.beginning h, ?_⟩
    rw [KeyState.holder, hw]
    dsimp only
    rw [if_pos hr]
    exact if_pos hmem

theorem mayName_creator {ks : KeyState} (hw : ks.writer = none) (hr : ks.readers = ∅)
    (h : ProcId) : MayName ks h ↔ h = ks.creator := by
  have hholder : ∀ iter, ks.holder iter = ks.creator := by
    intro iter
    simp [KeyState.holder, hw, hr]
  constructor
  · rintro ⟨iter, rfl⟩
    exact hholder iter
  · intro heq
    exact ⟨.ascending, (hholder _).trans heq.symm⟩

/-- **One rule for both reads**: whoever an immediate read names might have been named before
the reader was registered, as a queued read names it. The reader itself is named only if it was
a reader already, or is the creator. -/
def NamesAsQueued (m : AccessManager) (p : ProcId) (k : KeyId) : Prop :=
  ∀ iter h, ((read iter p k).run m).1 = .ok h →
    ∃ ks, m.keyStates k = some ks ∧ MayName ks h ∧ (h = p → p ∈ ks.readers ∨ p = ks.creator)

/-- A read of the key has to wait. -/
def ReadWaits (ks : KeyState) : Prop :=
  ks.writer.isSome ∨ ks.pendingRequest.head?.any fun req => req.2 == .write

/-- A read of `p` has to wait, or `p` reads the key already, or nobody does and `p` is its
creator. -/
def NotNew (m : AccessManager) (p : ProcId) (k : KeyId) : Prop :=
  ∀ ks, m.keyStates k = some ks →
    ReadWaits ks ∨ p ∈ ks.readers ∨ (ks.readers = ∅ ∧ p = ks.creator)

theorem writer_of_not_readWaits {ks : KeyState} (h : ¬ ReadWaits ks) : ks.writer = none := by
  cases hw : ks.writer with
  | none => rfl
  | some w => exact absurd (Or.inl (by rw [hw]; rfl)) h

/-- What an immediate read returns. -/
theorem read_ok_iff {m : AccessManager} {k : KeyId} {ks : KeyState} (hk : m.keyStates k = some ks)
    (iter : SetIter ProcId) (p h : ProcId) :
    ((read iter p k).run m).1 = .ok h ↔
      ¬ ReadWaits ks ∧ (ks.registerReader p).holder iter = h := by
  rw [read_run_some iter p hk]
  split
  · rename_i hwaits
    change ReadWaits ks at hwaits
    simp [hwaits]
  · rename_i hnow
    change ¬ ReadWaits ks at hnow
    simp [hnow]

/-- The holder that `read` asks for once the reader is registered. -/
theorem holder_registered {ks : KeyState} (hw : ks.writer = none) (iter : SetIter ProcId)
    (p : ProcId) : (ks.registerReader p).holder iter = iter.first (insert p ks.readers) := by
  simp [KeyState.holder, KeyState.registerReader, hw]

/-- **When an immediate read names the holder as a queued one does**: exactly when the reader is
not new. A new reader may be told to fetch the data from itself. -/
theorem namesAsQueued_iff (m : AccessManager) (p : ProcId) (k : KeyId) :
    m.NamesAsQueued p k ↔ m.NotNew p k := by
  constructor
  · intro hnames ks hk
    by_contra hnew
    obtain ⟨hnow, hnew⟩ := not_or.1 hnew
    obtain ⟨hreader, halone⟩ := not_or.1 hnew
    have hw := writer_of_not_readWaits hnow
    -- the readers are walked from the new one
    have hitself : (ks.registerReader p).holder (.beginning p) = p := by
      rw [holder_registered hw]
      exact if_pos (Finset.mem_insert_self p ks.readers)
    obtain ⟨ks', hk', hmay, -⟩ :=
      hnames (.beginning p) p ((read_ok_iff hk _ p p).2 ⟨hnow, hitself⟩)
    obtain rfl : ks = ks' := Option.some.inj (hk.symm.trans hk')
    by_cases hr : ks.readers = ∅
    · exact halone ⟨hr, (mayName_creator hw hr p).1 hmay⟩
    · exact hreader ((mayName_readers hw hr p).1 hmay)
  · intro hold iter h hread
    cases hk : m.keyStates k with
    | none =>
        rw [(missing_key_run hk iter p).2.1] at hread
        cases hread
    | some ks =>
        obtain ⟨hnow, hholder⟩ := (read_ok_iff hk iter p h).1 hread
        have hw := writer_of_not_readWaits hnow
        rw [holder_registered hw] at hholder
        refine ⟨ks, rfl, ?_⟩
        rcases hold ks hk with hwaits | hreader | ⟨hr, hcreator⟩
        · exact absurd hwaits hnow
        · rw [Finset.insert_eq_of_mem hreader] at hholder
          have hr : ks.readers ≠ ∅ := Finset.ne_empty_of_mem hreader
          have hmem : h ∈ ks.readers :=
            hholder ▸ iter.first_mem _ (Finset.nonempty_iff_ne_empty.2 hr)
          exact ⟨(mayName_readers hw hr h).2 hmem, fun _ => Or.inl hreader⟩
        · have hitself : h = p := by
            have hmem := iter.first_mem (insert p ks.readers) (Finset.insert_nonempty p ks.readers)
            rw [hholder, hr] at hmem
            simpa using hmem
          refine ⟨(mayName_creator hw hr h).2 (hitself.trans hcreator), fun _ => Or.inr hcreator⟩

/-- One process creates a key, and another reads it. -/
theorem newReader_namesItself :
    ¬ ∀ (inputs : List Input) (p : ProcId) (k : KeyId), (machine.run inputs).1.NamesAsQueued p k := by
  intro h
  obtain ⟨ks, hk, -, hnotNew⟩ := h [.call .ascending (.create 1 0)] 2 0 .ascending 2 rfl
  obtain rfl : KeyState.new 1 = ks := Option.some.inj hk
  rcases hnotNew rfl with hreader | hcreator
  · simp [KeyState.new] at hreader
  · simp [KeyState.new] at hcreator

end AccessManager

end Soros
