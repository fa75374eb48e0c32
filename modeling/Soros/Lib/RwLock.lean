import Mathlib.Data.Finset.Card
import Mathlib.Logic.Function.Basic
import Mathlib.Order.Preorder.Finite
import Mathlib.Tactic.Common

set_option autoImplicit false

/-! # A fair reader-writer lock

An abstract lock over processes of any type. Readers share it, a writer has it alone, and
whoever cannot be admitted waits in one queue. Fairness is a single rule: the front of the
queue is admitted as soon as the lock admits it, and nobody is admitted past the front.

`FairLock` carries that rule as a field, together with mutual exclusion, so a lock that
leaves a waiter in front of an open door cannot be built. `ask` and `leave` are its two
operations. What a verification of a lock manager needs of them is stated here:

* requests are neither lost nor reordered (`ask_conserves`, `leave_conserves`);
* who holds the lock changes only by being told so or by leaving (`ask_mode`, `leave_mode`);
* every departure brings the lock closer to being free (`leave_load`). -/

namespace RwLock

/-- The two ways of holding the lock. -/
inductive Mode where
  | read
  | write
  deriving DecidableEq, Repr

/-- The processes that hold the lock and those that wait for it, oldest first. -/
structure Lock (P : Type) where
  readers : Finset P
  writer : Option P
  queue : List (P × Mode)

namespace Lock

variable {P : Type} [DecidableEq P]

/-- The present holders leave room for one more in this mode. -/
def HasRoom (l : Lock P) : Mode → Prop
  | .read => l.writer = none
  | .write => l.writer = none ∧ l.readers = ∅

instance (l : Lock P) (m : Mode) : Decidable (l.HasRoom m) := by
  cases m <;> unfold HasRoom <;> infer_instance

/-- Mutual exclusion. -/
def Exclusive (l : Lock P) : Prop := l.writer ≠ none → l.readers = ∅

/-- The front of the queue, if there is one, has to wait. -/
def Saturated (l : Lock P) : Prop := ∀ e ∈ l.queue.head?, ¬ l.HasRoom e.2

/-- Nobody holds the lock. -/
def Idle (l : Lock P) : Prop := l.readers = ∅ ∧ l.writer = none

instance (l : Lock P) : Decidable l.Idle := by unfold Idle; infer_instance

/-- How `p` holds the lock. -/
def mode (l : Lock P) (p : P) : Option Mode :=
  if l.writer = some p then some .write else if p ∈ l.readers then some .read else none

/-- `p` holds the lock or waits for it. -/
def Involves (l : Lock P) (p : P) : Prop := l.mode p ≠ none ∨ ∃ m, (p, m) ∈ l.queue

/-- Enter `p` as a holder. -/
def hold (l : Lock P) (p : P) : Mode → Lock P
  | .read => { l with readers := insert p l.readers }
  | .write => { l with writer := some p }

/-- Strike `p` off the holders. -/
def drop (l : Lock P) (p : P) : Lock P :=
  { l with
    readers := l.readers.erase p
    writer := if l.writer = some p then none else l.writer }

/-- Admit from the front of `q` as long as the lock admits the front, and leave the rest
queued. Returns the entries admitted, in order. -/
def settle (l : Lock P) : List (P × Mode) → List (P × Mode) × Lock P
  | [] => ([], { l with queue := [] })
  | e :: q =>
      if l.HasRoom e.2 then
        let r := settle (l.hold e.1 e.2) q
        (e :: r.1, r.2)
      else ([], { l with queue := e :: q })

/-- The number of holders. -/
def held (l : Lock P) : Nat := l.readers.card + l.writer.toList.length

/-- Holders and waiters together: what has to leave before the lock is free. -/
def load (l : Lock P) : Nat := l.held + l.queue.length

/-! ## Holding and dropping -/

theorem mode_eq_none_iff (l : Lock P) (p : P) :
    l.mode p = none ↔ l.writer ≠ some p ∧ p ∉ l.readers := by
  unfold mode
  split <;> simp_all

theorem mode_eq_write_iff (l : Lock P) (p : P) : l.mode p = some .write ↔ l.writer = some p := by
  unfold mode
  split
  · simp_all
  · split <;> simp_all

theorem mode_eq_read_iff {l : Lock P} (h : l.Exclusive) (p : P) :
    l.mode p = some .read ↔ p ∈ l.readers := by
  unfold mode
  split
  · rename_i hw
    have hr : l.readers = ∅ := h (by simp [hw])
    simp [hr]
  · split <;> simp_all

/-- Who holds the lock for writing is its only holder. -/
theorem Exclusive.sole {l : Lock P} (h : l.Exclusive) {p q : P} (hp : l.mode p = some .write)
    (hq : l.mode q ≠ none) : q = p := by
  have hwriter := (mode_eq_write_iff l p).1 hp
  have hreaders : l.readers = ∅ := h (by rw [hwriter]; exact Option.some_ne_none p)
  by_contra hne
  refine hq ((mode_eq_none_iff l q).2 ⟨?_, ?_⟩)
  · rw [hwriter]
    exact fun heq => hne (Option.some.inj heq).symm
  · rw [hreaders]
    exact Finset.notMem_empty q

theorem idle_iff_mode (l : Lock P) : l.Idle ↔ ∀ p, l.mode p = none := by
  simp only [mode_eq_none_iff, Idle]
  constructor
  · rintro ⟨hr, hw⟩ p
    simp [hr, hw]
  · intro h
    refine ⟨Finset.eq_empty_of_forall_notMem fun p => (h p).2, ?_⟩
    cases hw : l.writer with
    | none => rfl
    | some w => exact absurd hw (h w).1

theorem hold_exclusive {l : Lock P} {m : Mode} (h : l.HasRoom m) (p : P) :
    (l.hold p m).Exclusive := by
  cases m with
  | read => exact fun hw => absurd h hw
  | write => exact fun _ => h.2

theorem drop_exclusive {l : Lock P} (h : l.Exclusive) (p : P) : (l.drop p).Exclusive := by
  intro hw
  have hw' : l.writer ≠ none := fun hn => hw (by simp [drop, hn])
  simp [drop, h hw']

theorem hold_mode {l : Lock P} {m : Mode} (h : l.HasRoom m) (p : P) :
    (l.hold p m).mode = Function.update l.mode p (some m) := by
  funext q
  by_cases hq : q = p
  · subst hq
    cases m with
    | read =>
        have hw : l.writer = none := h
        simp [mode, hold, hw]
    | write => simp [mode, hold]
  · rw [Function.update_of_ne hq]
    cases m with
    | read => simp [mode, hold, hq]
    | write =>
        obtain ⟨hw, hr⟩ := h
        simp [mode, hold, hw, hr, Ne.symm hq]

theorem drop_mode (l : Lock P) (p : P) :
    (l.drop p).mode = Function.update l.mode p none := by
  funext q
  by_cases hq : q = p
  · subst hq
    rw [Function.update_self, mode_eq_none_iff]
    refine ⟨?_, by simp [drop]⟩
    simp only [drop]
    split <;> simp_all
  · rw [Function.update_of_ne hq]
    by_cases hw : l.writer = some p
    · simp [mode, drop, hw, hq, Ne.symm hq]
    · simp [mode, drop, hw, hq]

/-! ## Admission -/

/-- Admission takes a prefix of the queue and leaves the rest. -/
theorem settle_append (l : Lock P) (q : List (P × Mode)) :
    (l.settle q).1 ++ (l.settle q).2.queue = q := by
  induction q generalizing l with
  | nil => rfl
  | cons e q ih =>
      unfold settle
      split
      · simpa using ih (l.hold e.1 e.2)
      · rfl

theorem settle_exclusive {l : Lock P} (h : l.Exclusive) (q : List (P × Mode)) :
    (l.settle q).2.Exclusive := by
  induction q generalizing l with
  | nil => exact h
  | cons e q ih =>
      unfold settle
      split
      · rename_i hroom
        exact ih (hold_exclusive hroom e.1)
      · exact h

theorem settle_saturated (l : Lock P) (q : List (P × Mode)) : (l.settle q).2.Saturated := by
  induction q generalizing l with
  | nil => intro e he; simp [settle] at he
  | cons e q ih =>
      unfold settle
      split
      · exact ih (l.hold e.1 e.2)
      · rename_i hroom
        intro e' he'
        obtain rfl : e = e' := by simpa using he'
        cases hm : e.2 <;> simpa [hm, HasRoom] using hroom

/-- The effect of admissions on the map from processes to modes. -/
def granted (f : P → Option Mode) (e : P × Mode) : P → Option Mode :=
  Function.update f e.1 (some e.2)

theorem settle_mode (l : Lock P) (q : List (P × Mode)) :
    (l.settle q).2.mode = (l.settle q).1.foldl granted l.mode := by
  induction q generalizing l with
  | nil => rfl
  | cons e q ih =>
      unfold settle
      split
      · rename_i hroom
        simp only [List.foldl_cons]
        rw [ih (l.hold e.1 e.2), hold_mode hroom]
        rfl
      · rfl

theorem foldl_granted_ne_none (es : List (P × Mode)) (p : P) :
    ∀ f : P → Option Mode, (es.foldl granted f) p ≠ none → f p ≠ none ∨ ∃ m, (p, m) ∈ es := by
  induction es with
  | nil => exact fun f h => Or.inl h
  | cons e es ih =>
      intro f h
      rcases ih _ h with hf | ⟨m, hm⟩
      · by_cases hp : p = e.1
        · exact Or.inr ⟨e.2, by simp [hp]⟩
        · rw [granted, Function.update_of_ne hp] at hf
          exact Or.inl hf
      · exact Or.inr ⟨m, List.mem_cons_of_mem e hm⟩

/-- A lock with a writer lets nobody in. -/
theorem settle_of_writer {l : Lock P} (h : l.writer ≠ none) (q : List (P × Mode)) :
    l.settle q = ([], { l with queue := q }) := by
  cases q with
  | nil => rfl
  | cons e q =>
      have hroom : ¬ l.HasRoom e.2 := by
        cases e.2 with
        | read => exact h
        | write => exact fun hr => h hr.1
      simp [settle, hroom]

/-- A lock with readers lets only readers in. -/
theorem settle_of_readers {l : Lock P} (h : l.readers ≠ ∅) (q : List (P × Mode)) :
    ∀ e ∈ (l.settle q).1, e.2 = .read := by
  induction q generalizing l with
  | nil => simp [settle]
  | cons e q ih =>
      unfold settle
      split
      · rename_i hroom
        have hread : e.2 = .read := by
          cases hm : e.2 with
          | read => rfl
          | write => rw [hm] at hroom; exact absurd hroom.2 h
        have hne : (l.hold e.1 e.2).readers ≠ ∅ := by
          rw [hread]
          exact Finset.insert_ne_empty _ _
        intro e' he'
        rcases List.mem_cons.1 he' with rfl | he'
        · exact hread
        · exact ih hne e' he'
      · simp

/-- The entry is a read. -/
def isRead (e : P × Mode) : Bool := e.2 == .read

/-- **A lock with readers** lets in the reads at the front of the queue, and nobody else. -/
theorem settle_reads {l : Lock P} (hw : l.writer = none) (hr : l.readers ≠ ∅)
    (q : List (P × Mode)) :
    l.settle q = (q.takeWhile isRead,
      ⟨l.readers ∪ ((q.takeWhile isRead).map Prod.fst).toFinset, none, q.dropWhile isRead⟩) := by
  induction q generalizing l with
  | nil => simp [settle, hw]
  | cons e q ih =>
      obtain ⟨p, m⟩ := e
      cases m with
      | read =>
          have hroom : l.HasRoom .read := hw
          have hrest := ih (l := l.hold p .read) hw (Finset.insert_ne_empty p l.readers)
          rw [settle, if_pos hroom, hrest]
          simp [isRead, hold, Finset.insert_union, Finset.union_insert]
      | write =>
          have hroom : ¬ l.HasRoom .write := fun h => hr h.2
          rw [settle, if_neg hroom]
          simp [isRead, hw]

/-- A free lock in front of which a read waits lets in the reads at the front. -/
theorem settle_reads_of_idle {l : Lock P} (h : l.Idle) (p : P) (q : List (P × Mode)) :
    l.settle ((p, .read) :: q) = (((p, .read) :: q).takeWhile isRead,
      ⟨((((p, Mode.read) :: q).takeWhile isRead).map Prod.fst).toFinset, none,
        ((p, Mode.read) :: q).dropWhile isRead⟩) := by
  have hroom : l.HasRoom .read := h.2
  have hrest := settle_reads (l := l.hold p .read) h.2 (Finset.insert_ne_empty p l.readers) q
  rw [settle, if_pos hroom, hrest]
  simp [isRead, hold, h.1]

/-- A free lock in front of which a write waits lets it in, alone. -/
theorem settle_write_of_idle {l : Lock P} (h : l.Idle) (p : P) (q : List (P × Mode)) :
    l.settle ((p, .write) :: q) = ([(p, .write)], ⟨∅, some p, q⟩) := by
  have hroom : l.HasRoom .write := ⟨h.2, h.1⟩
  rw [settle, if_pos hroom, settle_of_writer (Option.some_ne_none p)]
  simp [hold, h.1]

/-- A free lock lets in readers only or a single writer. -/
theorem settle_of_idle {l : Lock P} (h : l.Idle) (q : List (P × Mode)) :
    (∀ e ∈ (l.settle q).1, e.2 = .read) ∨ ∃ p, (l.settle q).1 = [(p, .write)] := by
  cases q with
  | nil => exact Or.inl (by simp [settle])
  | cons e q =>
      obtain ⟨p, m⟩ := e
      cases m with
      | read =>
          have hroom : l.HasRoom .read := h.2
          have hrest := settle_of_readers (l := l.hold p .read) (Finset.insert_ne_empty _ _) q
          refine Or.inl fun e' he' => ?_
          rw [settle, if_pos hroom] at he'
          rcases List.mem_cons.1 he' with rfl | he'
          · rfl
          · exact hrest e' he'
      | write =>
          have hroom : l.HasRoom .write := ⟨h.2, h.1⟩
          refine Or.inr ⟨p, ?_⟩
          rw [settle, if_pos hroom, settle_of_writer (Option.some_ne_none p)]

theorem hold_held_le {l : Lock P} {m : Mode} (h : l.HasRoom m) (p : P) :
    (l.hold p m).held ≤ l.held + 1 := by
  cases m with
  | read =>
      have hc := Finset.card_insert_le p l.readers
      simp only [hold, held]
      omega
  | write =>
      obtain ⟨hw, hr⟩ := h
      simp [hold, held, hw, hr]

theorem settle_load_le (l : Lock P) (q : List (P × Mode)) :
    (l.settle q).2.load ≤ l.held + q.length := by
  induction q generalizing l with
  | nil => exact Nat.le_refl _
  | cons e q ih =>
      unfold settle
      split
      · rename_i hroom
        have h1 := ih (l.hold e.1 e.2)
        have h2 := hold_held_le hroom e.1
        simp only [List.length_cons]
        omega
      · exact Nat.le_refl _

theorem drop_held_lt {l : Lock P} {p : P} (h : l.mode p ≠ none) : (l.drop p).held < l.held := by
  by_cases hw : l.writer = some p
  · have hc : (l.readers.erase p).card ≤ l.readers.card :=
      Finset.card_le_card (Finset.erase_subset p l.readers)
    simp [drop, held, hw]
    omega
  · have hr : p ∈ l.readers := by
      by_contra hr
      exact h ((mode_eq_none_iff l p).2 ⟨hw, hr⟩)
    have hc := Finset.card_erase_lt_of_mem hr
    simp only [drop, held, hw, if_false]
    omega

end Lock

/-! ## Fair locks -/

/-- A lock in which exclusion holds and nobody waits in front of an open door. -/
structure FairLock (P : Type) [DecidableEq P] extends Lock P where
  exclusive : toLock.Exclusive
  saturated : toLock.Saturated

namespace FairLock

variable {P : Type} [DecidableEq P]

/-- The free lock. -/
def free : FairLock P where
  readers := ∅
  writer := none
  queue := []
  exclusive := fun _ => rfl
  saturated := by intro e he; simp at he

/-- `p` asks for the lock. It is admitted at once if nobody waits and the holders leave
room; otherwise it queues up. -/
def ask (l : FairLock P) (p : P) (m : Mode) : Bool × FairLock P :=
  if h : l.queue = [] ∧ l.HasRoom m then
    (true,
      { toLock := l.hold p m
        exclusive := Lock.hold_exclusive h.2 p
        saturated := by
          intro e he
          cases m <;> simp [Lock.hold, h.1] at he })
  else
    (false,
      { toLock := { l.toLock with queue := l.queue ++ [(p, m)] }
        exclusive := l.exclusive
        saturated := by
          intro e he
          have key : ¬ l.HasRoom e.2 := by
            cases hq : l.queue with
            | nil =>
                obtain rfl : (p, m) = e := by simpa [hq] using he
                exact fun ha => h ⟨hq, ha⟩
            | cons e' q =>
                obtain rfl : e' = e := by simpa [hq] using he
                exact l.saturated e' (by simp [hq])
          cases hm : e.2 <;> simpa [hm, Lock.HasRoom] using key })

/-- `p` gives the lock back, and whoever can be admitted then is. Returns those. -/
def leave (l : FairLock P) (p : P) : List (P × Mode) × FairLock P :=
  (((l.drop p).settle l.queue).1,
    { toLock := ((l.drop p).settle l.queue).2
      exclusive := Lock.settle_exclusive (Lock.drop_exclusive l.exclusive p) _
      saturated := Lock.settle_saturated _ _ })

theorem queue_of_idle {l : FairLock P} (h : l.Idle) : l.queue = [] := by
  cases hq : l.queue with
  | nil => rfl
  | cons e q =>
      have hno := l.saturated e (by simp [hq])
      cases hm : e.2 <;> simp [hm, Lock.HasRoom, h.1, h.2] at hno

/-- Without a writer, only a write can be at the front of the queue. -/
theorem front_of_no_writer {l : FairLock P} (hw : l.writer = none) {e : P × Mode}
    {q : List (P × Mode)} (hq : l.queue = e :: q) : e.2 = .write := by
  have hno := l.saturated e (by simp [hq])
  cases hm : e.2 with
  | read => simp [hm, Lock.HasRoom, hw] at hno
  | write => rfl

/-- A read waits for the writer, or for a write in front of it. -/
theorem read_waits {l : FairLock P} {before after : List (P × Mode)} {p : P}
    (hq : l.queue = before ++ (p, .read) :: after) :
    l.writer ≠ none ∨ ∃ q, (q, .write) ∈ before := by
  by_cases hw : l.writer = none
  · refine Or.inr ?_
    cases before with
    | nil =>
        have hwrite := front_of_no_writer hw hq
        cases hwrite
    | cons e before =>
        have hwrite : e.2 = .write := front_of_no_writer hw hq
        exact ⟨e.1, hwrite ▸ List.mem_cons_self⟩
  · exact Or.inl hw

theorem ask_granted_iff (l : FairLock P) (p : P) (m : Mode) :
    (l.ask p m).1 = true ↔ l.queue = [] ∧ l.HasRoom m := by
  unfold ask
  split
  · rename_i h
    simpa using h
  · rename_i h
    simpa using h

theorem ask_conserves (l : FairLock P) (p : P) (m : Mode) :
    (if (l.ask p m).1 then [(p, m)] else []) ++ (l.ask p m).2.queue = l.queue ++ [(p, m)] := by
  unfold ask
  split
  · rename_i h
    cases m <;> simp [Lock.hold, h.1]
  · simp

/-- Whoever is not admitted at once is queued up, and nothing else changes. -/
theorem ask_waits {l : FairLock P} {p : P} {m : Mode} (h : (l.ask p m).1 = false) :
    (l.ask p m).2.toLock = { l.toLock with queue := l.queue ++ [(p, m)] } := by
  unfold ask at h ⊢
  split
  · rename_i hask
    simp [hask] at h
  · rfl

/-- Nobody waits where a process is admitted at once. -/
theorem ask_granted_queue {l : FairLock P} {p : P} {m : Mode} (h : (l.ask p m).1 = true) :
    l.queue = [] ∧ (l.ask p m).2.queue = [] := by
  have hq := ((l.ask_granted_iff p m).1 h).1
  have hcons := l.ask_conserves p m
  rw [if_pos h, hq] at hcons
  exact ⟨hq, by simpa using hcons⟩

theorem leave_conserves (l : FairLock P) (p : P) : (l.leave p).1 ++ (l.leave p).2.queue = l.queue :=
  Lock.settle_append _ _

theorem ask_mode (l : FairLock P) (p : P) (m : Mode) :
    (l.ask p m).2.mode
      = if (l.ask p m).1 then Function.update l.mode p (some m) else l.mode := by
  unfold ask
  split
  · rename_i h
    exact Lock.hold_mode h.2 p
  · rfl

theorem leave_mode (l : FairLock P) (p : P) :
    (l.leave p).2.mode = (l.leave p).1.foldl Lock.granted (Function.update l.mode p none) := by
  show ((l.drop p).settle l.queue).2.mode = _
  rw [Lock.settle_mode, Lock.drop_mode]
  rfl

/-- A lock is free after a departure exactly if `p` is its writer or its only reader. -/
theorem drop_frees_iff (l : FairLock P) (p : P) :
    l.mode p ≠ none ∧ (l.drop p).Idle ↔ l.writer = some p ∨ l.readers = {p} := by
  rw [Ne, Lock.mode_eq_none_iff]
  constructor
  · rintro ⟨hholds, hreaders, -⟩
    by_cases hw : l.writer = some p
    · exact Or.inl hw
    · have hp : p ∈ l.readers := by
        by_contra hp
        exact hholds ⟨hw, hp⟩
      rcases (Finset.erase_eq_empty_iff _ _).1 hreaders with hnone | hone
      · exact absurd (hnone ▸ hp) (Finset.notMem_empty p)
      · exact Or.inr hone
  · rintro (hw | hr)
    · have hnone : l.readers = ∅ := l.exclusive (by simp [hw])
      refine ⟨fun h => h.1 hw, ?_, ?_⟩
      · simp [Lock.drop, hnone]
      · simp [Lock.drop, hw]
    · have hnone : l.writer = none := by
        by_contra hw
        exact absurd (hr.symm.trans (l.exclusive hw)) (Finset.singleton_ne_empty p)
      refine ⟨fun h => h.2 (by simp [hr]), ?_, ?_⟩
      · simp [Lock.drop, hr]
      · simp [Lock.drop, hnone]

/-- As long as someone holds the lock, a departure lets nobody in. -/
theorem settle_drop_of_held {l : FairLock P} {p : P} (h : ¬ (l.drop p).Idle) :
    (l.drop p).settle l.queue = ([], l.drop p) := by
  by_cases hw : (l.drop p).writer = none
  · have hr : (l.drop p).readers ≠ ∅ := fun hr => h ⟨hr, hw⟩
    have hnone : l.writer = none := by
      by_contra hne
      simp [Lock.drop, l.exclusive hne] at hr
    cases hq : l.queue with
    | nil => simp [Lock.settle, Lock.drop, hq]
    | cons e q =>
        -- the front is a write: a read would have been let in before
        have hwrite : e.2 = .write := front_of_no_writer hnone hq
        have hroom : ¬ (l.drop p).HasRoom e.2 := by
          rw [hwrite]
          exact fun hroom => hr hroom.2
        rw [Lock.settle, if_neg hroom]
        simp [Lock.drop, hq]
  · exact Lock.settle_of_writer hw l.queue

theorem drop_held_of_other {l : FairLock P} {p q : P} (hne : p ≠ q) (h : l.mode p ≠ none) :
    ¬ (l.drop q).Idle := by
  intro hidle
  have hmode := (Lock.idle_iff_mode _).1 hidle p
  rw [Lock.drop_mode, Function.update_of_ne hne] at hmode
  exact h hmode

/-- While `p` holds the lock, the departure of another lets nobody in. -/
theorem leave_of_other {l : FairLock P} {p q : P} (hne : p ≠ q) (h : l.mode p ≠ none) :
    (l.leave q).1 = [] := by
  show ((l.drop q).settle l.queue).1 = []
  rw [settle_drop_of_held (drop_held_of_other hne h)]

/-- Nobody loses its access, or gets another, by what another process does. -/
theorem leave_mode_of_other {l : FairLock P} {p q : P} (hne : p ≠ q) (h : l.mode p ≠ none) :
    (l.leave q).2.mode p = l.mode p := by
  rw [leave_mode, leave_of_other hne h]
  exact Function.update_of_ne hne _ _

/-- Asking again does not change the access of a holder. -/
theorem ask_mode_of_holder {l : FairLock P} {p q : P} {m : Mode} (h : l.mode p ≠ none) :
    (l.ask q m).2.mode p = l.mode p := by
  rw [ask_mode]
  split
  · rename_i hask
    by_cases hp : p = q
    · subst hp
      -- let in at once beside itself, `p` reads and goes on reading
      have hroom := ((l.ask_granted_iff p m).1 hask).2
      have hw : l.writer = none := by
        cases m with
        | read => exact hroom
        | write => exact hroom.1
      have hr : p ∈ l.readers := by
        by_contra hr
        exact h ((l.mode_eq_none_iff p).2 ⟨by simp [hw], hr⟩)
      cases m with
      | read => rw [Function.update_self, (Lock.mode_eq_read_iff l.exclusive p).2 hr]
      | write => simp [hroom.2] at hr
    · exact Function.update_of_ne hp _ _
  · rfl

theorem ask_involves {l : FairLock P} {p q : P} {m : Mode} (h : (l.ask p m).2.Involves q) :
    l.Involves q ∨ q = p := by
  by_cases hq : q = p
  · exact Or.inr hq
  refine Or.inl ?_
  rcases h with hmode | ⟨m', hm'⟩
  · rw [ask_mode] at hmode
    split at hmode
    · rw [Function.update_of_ne hq] at hmode
      exact Or.inl hmode
    · exact Or.inl hmode
  · have hmem : (q, m') ∈ l.queue ++ [(p, m)] := by
      rw [← l.ask_conserves p m]
      exact List.mem_append_right _ hm'
    refine Or.inr ⟨m', ?_⟩
    simpa [hq] using hmem

theorem leave_involves {l : FairLock P} {p q : P} (h : (l.leave p).2.Involves q) :
    l.Involves q := by
  rcases h with hmode | ⟨m', hm'⟩
  · rw [leave_mode] at hmode
    rcases Lock.foldl_granted_ne_none _ q _ hmode with hold | ⟨m', hm'⟩
    · by_cases hq : q = p
      · simp [hq] at hold
      · rw [Function.update_of_ne hq] at hold
        exact Or.inl hold
    · exact Or.inr ⟨m', l.leave_conserves p ▸ List.mem_append_left _ hm'⟩
  · exact Or.inr ⟨m', l.leave_conserves p ▸ List.mem_append_right _ hm'⟩

/-- **Progress.** When a holder leaves, fewer are left to leave, however many waiters it let
in. -/
theorem leave_load {l : FairLock P} {p : P} (h : l.mode p ≠ none) :
    (l.leave p).2.load < l.load := by
  have h1 := (l.drop p).settle_load_le l.queue
  have h2 := Lock.drop_held_lt h
  show ((l.drop p).settle l.queue).2.load < l.held + l.queue.length
  omega

end FairLock

/-! ## Several locks -/

/-- **Acquisition in order.** Everybody is inside some locks and blocked at some, each of which
somebody is inside. If nobody is blocked at a lock that is not above all those it is inside,
then somebody is inside a lock and blocked at none. -/
theorem exists_inside_not_blocked {P K α : Type} [Preorder α] (rank : K → α)
    {blocked inside : P → K → Prop} (hfin : {k | ∃ p, blocked p k}.Finite)
    (hheld : ∀ p k, blocked p k → ∃ q, inside q k)
    (hordered : ∀ p k k', blocked p k → inside p k' → rank k' < rank k)
    {p : P} {k : K} (h : blocked p k) :
    ∃ q k', inside q k' ∧ ∀ k'', ¬ blocked q k'' := by
  obtain ⟨top, ⟨p', hp'⟩, hmax⟩ := hfin.exists_maximalFor rank _ ⟨k, p, h⟩
  obtain ⟨q, hq⟩ := hheld p' top hp'
  refine ⟨q, top, hq, fun k' hk' => ?_⟩
  -- whoever is inside the highest of them would be blocked at a higher one
  have hless := hordered q k' top hk' hq
  exact absurd (hmax ⟨q, hk'⟩ hless.le) hless.not_ge

end RwLock
