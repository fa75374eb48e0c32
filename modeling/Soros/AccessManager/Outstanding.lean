import Soros.AccessManager.History
import Soros.Lib.Outstanding

set_option autoImplicit false

/-! # What the access manager is for

Nothing but a list for each key: who has created it, and the requests that are outstanding on it,
in the order in which they were made. A call makes a request, or takes the granted requests of a
process out of the list. Who has access is not stored, it can be read off the list: whoever is in
the longest part at its front that goes together.

`outstanding` is a machine with these lists as its state. The access manager emits the same
events in every run, and its key states are the locks of the lists (`machine_refines`). Neither
the readers, the writer and the queue that it stores, nor the two places at which it decides who
gets in, say more than the lists. -/

namespace Soros

open RwLock

namespace AccessManager

/-- The creator of a key, and the requests outstanding on it, oldest first. -/
abbrev Outstanding := ProcId × List (ProcId × Mode)

/-- The key state of a list of requests. -/
def Outstanding.keyState (o : Outstanding) : KeyState :=
  KeyState.ofLock (FairLock.ofRequests o.2).toLock o.1

/-- Those who have access to read. -/
def readersOf (es : List (ProcId × Mode)) : Finset ProcId :=
  (((admitted es).filter Lock.isRead).map Prod.fst).toFinset

namespace Outstanding

/-- A request is made, and answered at once if it is granted. -/
def ask (iter : SetIter ProcId) (p : ProcId) (k : KeyId) (m : Mode) (o : Outstanding) :
    Option Outstanding × List Event :=
  let es := o.2 ++ [(p, m)]
  let holder := if m = .read then some (iter.first (readersOf es)) else none
  (some (o.1, es), .requested p k (requestOf m) ::
    if admitted es = admitted o.2 ++ [(p, m)] then [.answered p k (requestOf m) holder] else [])

/-- A process gives its granted requests back, and others are granted. -/
def leave (p : ProcId) (k : KeyId) (o : Outstanding) : Option Outstanding × List Event :=
  let es := quit p o.2
  (some (o.1, es),
    .released p k :: ((admitted es).drop (kept p o.2).length).map (notice k o.1))

/-- What a call makes of its key. -/
def call (iter : SetIter ProcId) : Call → Option Outstanding → Option Outstanding × List Event
  | .create p k, none => (some (p, []), [.created p k])
  | .delete k, some (_, []) => (none, [.deleted k])
  | .read p k, some o => o.ask iter p k .read
  | .write p k, some o => o.ask iter p k .write
  | .release p k, some o =>
      if ∃ e ∈ admitted o.2, e.1 = p then o.leave p k else (some o, [])
  | _, o => (o, [])

end Outstanding

/-- The machine of the lists. -/
def outstanding : IOMachine (KeyId → Option Outstanding) Input Event where
  start := fun _ => none
  step s
    | .call iter c =>
        let r := Outstanding.call iter c (s c.key)
        (Function.update s c.key r.1, r.2)
    | .tryIter => (s, [])

/-! ## The key states are those of the lists -/

structure Represents (m : AccessManager) (s : KeyId → Option Outstanding) : Prop where
  connected : m.accessGranted.connected = true
  keys : ∀ k, m.keyStates k = (s k).map Outstanding.keyState

theorem Represents.update {m m' : AccessManager} {s : KeyId → Option Outstanding}
    (h : Represents m s) {k : KeyId} {o : Option Outstanding}
    (hconnected : m'.accessGranted.connected = true)
    (hkeys : m'.keyStates = Function.update m.keyStates k (o.map Outstanding.keyState)) :
    Represents m' (Function.update s k o) := by
  refine ⟨hconnected, fun k' => ?_⟩
  rw [hkeys]
  by_cases hk : k' = k
  · rw [hk, Function.update_self, Function.update_self]
  · rw [Function.update_of_ne hk, Function.update_of_ne hk, h.keys k']

theorem Represents.refused {m : AccessManager} {s : KeyId → Option Outstanding}
    (h : Represents m s) {k : KeyId} {o : Option Outstanding} (hk : s k = o) :
    Represents m (Function.update s k o) := by
  rw [← hk, Function.update_eq_self]
  exact h

theorem readersOf_eq (es : List (ProcId × Mode)) :
    readersOf es = (FairLock.ofRequests es).readers := by
  ext p
  rw [FairLock.mem_ofRequests_readers]
  simp [readersOf, Lock.isRead]

theorem ofRequests_idle (es : List (ProcId × Mode)) :
    (FairLock.ofRequests es).Idle ↔ es = [] := by
  rw [Lock.idle_iff_mode]
  constructor
  · intro hfree
    by_contra hne
    obtain ⟨e, he⟩ := List.exists_mem_of_ne_nil _ (admitted_ne_nil hne)
    exact (FairLock.ofRequests_mode_eq_none es e.1).1 (hfree e.1) e.2 he
  · rintro rfl p
    exact (FairLock.ofRequests_mode_eq_none [] p).2 fun m => List.not_mem_nil

/-- The lock answers at once if the request is granted. -/
theorem ask_granted (es : List (ProcId × Mode)) (p : ProcId) (m : Mode) :
    ((FairLock.ofRequests es).ask p m).1 = true ↔
      admitted (es ++ [(p, m)]) = admitted es ++ [(p, m)] := by
  have hadmitted := (FairLock.ask_ofRequests es p m).2
  constructor
  · intro hask
    rw [hadmitted, if_pos hask]
  · intro heq
    by_contra hask
    rw [if_neg hask] at hadmitted
    simp [hadmitted] at heq

section

variable {m : AccessManager} {s : KeyId → Option Outstanding} {iter : SetIter ProcId}

/-- The step leaves the key states those of the lists, and emits the same events. -/
def Follows (m : AccessManager) (s : KeyId → Option Outstanding) (i : Input) : Prop :=
  Represents (m.step i).1 (outstanding.step s i).1 ∧ (outstanding.step s i).2 = (m.step i).2

theorem Represents.lock (h : Represents m s) {k : KeyId} {c : ProcId} {es : List (ProcId × Mode)}
    (hs : s k = some (c, es)) :
    m.keyStates k = some (KeyState.ofLock (FairLock.ofRequests es).toLock c) := by
  rw [h.keys k, hs]
  rfl

theorem Represents.missing (h : Represents m s) {k : KeyId} (hs : s k = none) :
    m.keyStates k = none := by
  rw [h.keys k, hs]
  rfl

/-- A call that is refused. -/
theorem Represents.stays (h : Represents m s) {c : Call} {e : AccessManagerError}
    (hrun : (c.invoke iter).run m = (.err e, m)) (hasked : c.asked (.err e) = [])
    (hcall : Outstanding.call iter c (s c.key) = (s c.key, [])) :
    Follows m s (.call iter c) := by
  have hcompleted : c.completed (.err e) = [] := by cases c <;> rfl
  unfold Follows
  rw [step_of_run hrun, hasked, hcompleted, sentSince_self]
  dsimp only [outstanding]
  rw [hcall]
  exact ⟨h.refused rfl, rfl⟩

theorem Represents.read (h : Represents m s) (p : ProcId) {k : KeyId} {o : Outstanding}
    (hs : s k = some o) : Follows m s (.call iter (.read p k)) := by
  obtain ⟨c, es⟩ := o
  have hrun := invoke_read iter p (h.lock hs)
  obtain ⟨hlock, -⟩ := FairLock.ask_ofRequests es p .read
  have hkeys : ∀ ks, ks = KeyState.ofLock ((FairLock.ofRequests es).ask p .read).2.toLock c →
      Represents (m.setKeyState k ks)
        (Function.update s k (some (c, es ++ [(p, Mode.read)]))) := by
    rintro ks rfl
    rw [hlock]
    exact h.update h.connected rfl
  unfold Follows
  dsimp only [outstanding, Call.key]
  rw [step_of_run hrun, hs]
  refine ⟨hkeys _ rfl, ?_⟩
  dsimp only [Outstanding.call, Outstanding.ask]
  by_cases hask : ((FairLock.ofRequests es).ask p .read).1 = true
  · obtain ⟨hwriter, hreaders⟩ := ask_read_granted hask
    rw [hlock] at hwriter hreaders ⊢
    have hholder : (KeyState.ofLock (FairLock.ofRequests (es ++ [(p, Mode.read)])).toLock c).holder
        iter = iter.first (readersOf (es ++ [(p, Mode.read)])) := by
      simp [KeyState.holder, hwriter, hreaders, readersOf_eq]
    rw [if_pos ((ask_granted es p .read).1 hask), if_pos hask, hholder, if_pos rfl]
    simp [Call.asked, Call.completed, requestOf]
  · rw [if_neg fun hno => hask ((ask_granted es p .read).2 hno), if_neg hask]
    simp [Call.asked, Call.completed, requestOf]

theorem Represents.write (h : Represents m s) (p : ProcId) {k : KeyId} {o : Outstanding}
    (hs : s k = some o) : Follows m s (.call iter (.write p k)) := by
  obtain ⟨c, es⟩ := o
  have hrun := invoke_write iter p (h.lock hs)
  obtain ⟨hlock, -⟩ := FairLock.ask_ofRequests es p .write
  rw [hlock] at hrun
  unfold Follows
  dsimp only [outstanding, Call.key]
  rw [step_of_run hrun, hs]
  refine ⟨h.update h.connected rfl, ?_⟩
  dsimp only [Outstanding.call, Outstanding.ask]
  by_cases hask : ((FairLock.ofRequests es).ask p .write).1 = true
  · rw [if_pos ((ask_granted es p .write).1 hask), if_pos hask]
    simp [Call.asked, Call.completed, requestOf]
  · rw [if_neg fun hno => hask ((ask_granted es p .write).2 hno), if_neg hask]
    simp [Call.asked, Call.completed, requestOf]

theorem Represents.release (h : Represents m s) (p : ProcId) {k : KeyId} {o : Outstanding}
    (hs : s k = some o) : Follows m s (.call iter (.release p k)) := by
  obtain ⟨c, es⟩ := o
  have hrun := invoke_release iter p h.connected (h.lock hs)
  have hholds : (FairLock.ofRequests es).mode p = none ↔ ¬ ∃ e ∈ admitted es, e.1 = p := by
    rw [FairLock.ofRequests_mode_eq_none]
    simp
  by_cases hmode : (FairLock.ofRequests es).mode p = none
  · rw [if_pos hmode] at hrun
    refine h.stays hrun rfl ?_
    dsimp only [Call.key]
    rw [hs]
    exact if_neg (hholds.1 hmode)
  · obtain ⟨hlock, hadmitted⟩ := FairLock.leave_ofRequests es p
    rw [if_neg hmode, hlock] at hrun
    unfold Follows
    dsimp only [outstanding, Call.key]
    rw [step_of_run hrun, hs]
    dsimp only [Outstanding.call]
    rw [if_pos (not_not.1 fun hno => hmode (hholds.2 hno))]
    refine ⟨h.update h.connected rfl, ?_⟩
    dsimp only [Outstanding.leave]
    rw [hadmitted, List.drop_left, sentSince_settled, List.map_map]
    rfl

/-- Only `create` does not need the key. -/
theorem Represents.lacks (h : Represents m s) {c : Call} (hs : s c.key = none)
    (hcreate : ∀ p k, c ≠ .create p k) : Follows m s (.call iter c) := by
  refine h.stays (invoke_missing (h.missing hs) iter hcreate) ?_ ?_
  · cases c <;> rfl
  · rw [hs]
    cases c with
    | create p k => exact absurd rfl (hcreate p k)
    | delete | read | write | release => rfl

theorem Represents.create (h : Represents m s) (p : ProcId) (k : KeyId) :
    Follows m s (.call iter (.create p k)) := by
  have hrun := invoke_create m iter p k
  cases hs : s k with
  | none =>
      rw [h.missing hs, if_neg (by simp)] at hrun
      unfold Follows
      rw [step_of_run hrun, sentSince_setKeyState]
      dsimp only [outstanding, Call.key]
      rw [hs]
      exact ⟨h.update h.connected rfl, rfl⟩
  | some o =>
      rw [h.lock hs, if_pos Option.isSome_some] at hrun
      exact h.stays hrun rfl (by dsimp only [Call.key]; rw [hs]; rfl)

theorem Represents.delete (h : Represents m s) {k : KeyId} {o : Outstanding}
    (hs : s k = some o) : Follows m s (.call iter (.delete k)) := by
  obtain ⟨c, es⟩ := o
  have hrun := invoke_delete iter (h.lock hs)
  cases es with
  | nil =>
      rw [if_pos ((ofRequests_idle []).2 rfl)] at hrun
      unfold Follows
      rw [step_of_run hrun]
      dsimp only [outstanding, Call.key]
      rw [hs]
      refine ⟨h.update h.connected rfl, ?_⟩
      simp [Outstanding.call, Call.asked, Call.completed, sentSince]
  | cons e es =>
      rw [if_neg fun hidle => absurd ((ofRequests_idle _).1 hidle) (List.cons_ne_nil e es)] at hrun
      exact h.stays hrun rfl (by dsimp only [Call.key]; rw [hs]; rfl)

theorem Represents.step (h : Represents m s) (i : Input) : Follows m s i := by
  cases i with
  | tryIter => exact ⟨⟨h.connected, h.keys⟩, rfl⟩
  | call iter c =>
      cases hs : s c.key with
      | none =>
          cases c with
          | create p k => exact h.create p k
          | delete | read | write | release => exact h.lacks hs (by simp)
      | some o =>
          cases c with
          | create p k => exact h.create p k
          | delete k => exact h.delete hs
          | read p k => exact h.read p hs
          | write p k => exact h.write p hs
          | release p k => exact h.release p hs

end

theorem run_represents (inputs : List Input) :
    Represents (machine.run inputs).1 (outstanding.run inputs).1 ∧
      (outstanding.run inputs).2 = (machine.run inputs).2 := by
  have hstart : Represents machine.start outstanding.start := ⟨rfl, fun k => rfl⟩
  have hrun := IOMachine.exec_simulation (M := machine) (N := outstanding) (R := Represents) id id
    (fun m s i h => ⟨(Represents.step h i).1, by rw [List.map_id]; exact (h.step i).2⟩) hstart inputs
  rw [List.map_id, List.map_id] at hrun
  exact hrun

/-- **The access manager keeps lists of requests**: in every run it emits what the machine of the
lists emits, and stores the locks of the lists. -/
theorem machine_refines (inputs : List Input) :
    (machine.run inputs).2 = (outstanding.run inputs).2 ∧
      ∀ k, (machine.run inputs).1.keyStates k
        = ((outstanding.run inputs).1 k).map Outstanding.keyState := by
  obtain ⟨hkeys, hevents⟩ := run_represents inputs
  exact ⟨hevents.symm, hkeys.keys⟩

/-! ## The key states are in the log -/

/-- How an event changes the list of its key. Grants do not: they can be read off the list. -/
def Outstanding.afterEvent (o : Option Outstanding) : Event → Option Outstanding
  | .created p _ => some (p, [])
  | .deleted _ => none
  | .requested p _ .read => o.map fun o => (o.1, o.2 ++ [(p, .read)])
  | .requested p _ .write => o.map fun o => (o.1, o.2 ++ [(p, .write)])
  | .released p _ => o.map fun o => (o.1, quit p o.2)
  | _ => o

/-- What is outstanding on a key, by a log. -/
def replay (k : KeyId) (log : List Event) : Option Outstanding :=
  (log.filter fun e => e.key = k).foldl Outstanding.afterEvent none

namespace Outstanding

theorem foldl_notice (k : KeyId) (c : ProcId) (es : List (ProcId × Mode)) (o : Option Outstanding) :
    (es.map (notice k c)).foldl afterEvent o = o := by
  induction es with
  | nil => rfl
  | cons e es ih => exact ih

theorem ask_key (iter : SetIter ProcId) (p : ProcId) (k : KeyId) (m : Mode) (o : Outstanding) :
    ∀ e ∈ (o.ask iter p k m).2, e.key = k := by
  intro e he
  rcases List.mem_cons.1 he with rfl | he
  · rfl
  · split at he
    · rw [List.mem_singleton.1 he]
      rfl
    · cases he

theorem ask_foldl (iter : SetIter ProcId) (p : ProcId) (k : KeyId) (m : Mode) (o : Outstanding) :
    (o.ask iter p k m).2.foldl afterEvent (some o) = (o.ask iter p k m).1 := by
  unfold ask
  dsimp only
  cases m <;> split <;> rfl

/-- The events of a call are of its key, and what they make of the key is what the call makes. -/
theorem call_events (iter : SetIter ProcId) (c : Call) (o : Option Outstanding) :
    (∀ e ∈ (call iter c o).2, e.key = c.key) ∧
      (call iter c o).2.foldl afterEvent o = (call iter c o).1 := by
  have hnothing : (∀ e ∈ ([] : List Event), e.key = c.key) ∧ [].foldl afterEvent o = o :=
    ⟨by simp, rfl⟩
  cases o with
  | none =>
      cases c with
      | create p k => exact ⟨by simp [call, Event.key, Call.key], rfl⟩
      | delete | read | write | release => exact hnothing
  | some o =>
      obtain ⟨creator, es⟩ := o
      cases c with
      | create p k => exact hnothing
      | delete k =>
          cases es with
          | nil => exact ⟨by simp [call, Event.key, Call.key], rfl⟩
          | cons e es => exact hnothing
      | read p k => exact ⟨ask_key iter p k .read _, ask_foldl iter p k .read _⟩
      | write p k => exact ⟨ask_key iter p k .write _, ask_foldl iter p k .write _⟩
      | release p k =>
          unfold call
          dsimp only
          split
          · refine ⟨fun e he => ?_, foldl_notice k creator _ _⟩
            rcases List.mem_cons.1 he with rfl | he
            · rfl
            · obtain ⟨e', -, rfl⟩ := List.mem_map.1 he
              rfl
          · exact hnothing

end Outstanding

theorem outstanding_replay (inputs : List Input) (k : KeyId) :
    (outstanding.run inputs).1 k = replay k (outstanding.run inputs).2 := by
  refine IOMachine.run_induction (M := outstanding)
    (fun s log => ∀ k, s k = replay k log) (fun k => rfl) (fun s log i hlog k => ?_) inputs k
  unfold replay
  rw [List.filter_append, List.foldl_append]
  have hs : (log.filter fun e => e.key = k).foldl Outstanding.afterEvent none = s k := (hlog k).symm
  rw [hs]
  cases i with
  | tryIter => rfl
  | call iter c =>
      obtain ⟨hkey, hfold⟩ := Outstanding.call_events iter c (s c.key)
      dsimp only [outstanding]
      by_cases hk : k = c.key
      · subst hk
        rw [Function.update_self, List.filter_eq_self.2 (by simpa using hkey), hfold]
      · rw [Function.update_of_ne hk, List.filter_eq_nil_iff.2 fun e he => by
          simpa [hkey e he] using Ne.symm hk]
        rfl

/-- **The log says it all**: after any run, the state of every key can be told from the requests
and releases that have been made on it. -/
theorem keyStates_replay (inputs : List Input) (k : KeyId) :
    (machine.run inputs).1.keyStates k
      = (replay k (machine.run inputs).2).map Outstanding.keyState := by
  obtain ⟨hkeys, hevents⟩ := run_represents inputs
  rw [hkeys.keys k, outstanding_replay inputs k, hevents]

end AccessManager

end Soros
