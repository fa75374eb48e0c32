import Mathlib.Data.List.TakeWhile
import Soros.Lib.RwLock

set_option autoImplicit false

/-! # A fair lock as a list of requests

A request is outstanding from when it is made until its process leaves. The outstanding requests,
oldest first, are all there is to a fair lock: granted are as many of them from the front as go
together, reads with reads or a write alone (`admitted_longest`), and the others wait.

`FairLock.ofRequests` is the lock of a list. Asking puts a request at the end of the list
(`ask_ofRequests`), and leaving takes the granted requests of a process out of it
(`leave_ofRequests`). -/

namespace RwLock

variable {P : Type}

/-- Requests that can be granted together. -/
def Together (es : List (P × Mode)) : Prop := (∀ e ∈ es, e.2 = .read) ∨ ∃ e, es = [e]

/-- The outstanding requests that are granted. -/
def admitted : List (P × Mode) → List (P × Mode)
  | [] => []
  | (p, .write) :: _ => [(p, .write)]
  | (p, .read) :: es => (p, .read) :: es.takeWhile Lock.isRead

/-- The outstanding requests that wait. -/
def queued (es : List (P × Mode)) : List (P × Mode) := es.drop (admitted es).length

theorem prefix_admitted (es : List (P × Mode)) : admitted es <+: es := by
  cases es with
  | nil => exact List.prefix_rfl
  | cons e es =>
      obtain ⟨p, m⟩ := e
      cases m with
      | read => exact (List.prefix_cons_inj _).2 (List.takeWhile_prefix _)
      | write => exact (List.prefix_cons_inj _).2 List.nil_prefix

theorem admitted_append_queued (es : List (P × Mode)) : admitted es ++ queued es = es :=
  List.prefix_iff_eq_append.1 (prefix_admitted es)

theorem admitted_together (es : List (P × Mode)) : Together (admitted es) := by
  cases es with
  | nil => exact Or.inl (by simp [admitted])
  | cons e es =>
      obtain ⟨p, m⟩ := e
      cases m with
      | read =>
          refine Or.inl fun e he => ?_
          rcases List.mem_cons.1 he with rfl | he
          · rfl
          · simpa [Lock.isRead] using List.mem_takeWhile_imp he
      | write => exact Or.inr ⟨_, rfl⟩

/-- **Nobody is granted less than possible**: whatever goes together at the front is granted. -/
theorem admitted_longest {es es' : List (P × Mode)} (hfront : es' <+: es) (h : Together es') :
    es' <+: admitted es := by
  cases es with
  | nil => exact hfront
  | cons e es =>
      cases es' with
      | nil => exact List.nil_prefix
      | cons e' es' =>
          obtain ⟨rfl, hrest⟩ := List.cons_prefix_cons.1 hfront
          obtain ⟨p, m⟩ := e'
          cases m with
          | read =>
              refine (List.prefix_cons_inj _).2 ?_
              rcases h with hreads | ⟨e, he⟩
              · obtain ⟨rest, rfl⟩ := hrest
                rw [List.takeWhile_append_of_pos fun e he => by
                  simp [Lock.isRead, hreads e (List.mem_cons_of_mem _ he)]]
                exact List.prefix_append _ _
              · obtain ⟨-, rfl⟩ := List.cons.inj he
                exact List.nil_prefix
          | write =>
              rcases h with hreads | ⟨e, he⟩
              · have hread := hreads _ List.mem_cons_self
                cases hread
              · obtain ⟨-, rfl⟩ := List.cons.inj he
                exact List.prefix_rfl

theorem admitted_of_together {es : List (P × Mode)} (h : Together es) : admitted es = es :=
  (prefix_admitted es).eq_of_length_le (admitted_longest List.prefix_rfl h).length_le

theorem admitted_ne_nil {es : List (P × Mode)} (h : es ≠ []) : admitted es ≠ [] := by
  obtain ⟨⟨p, m⟩, es, rfl⟩ := List.exists_cons_of_ne_nil h
  cases m <;> exact List.cons_ne_nil _ _

variable [DecidableEq P]

/-- The granted requests of all processes but `p`. -/
def kept (p : P) (es : List (P × Mode)) : List (P × Mode) :=
  (admitted es).filter fun e => e.1 ≠ p

/-- What is outstanding when `p` has left. -/
def quit (p : P) (es : List (P × Mode)) : List (P × Mode) := kept p es ++ queued es

theorem kept_together (p : P) (es : List (P × Mode)) : Together (kept p es) := by
  rcases admitted_together es with hreads | ⟨e, he⟩
  · exact Or.inl fun e he => hreads e (List.mem_filter.1 he).1
  · unfold kept
    rw [he]
    by_cases hp : e.1 = p
    · exact Or.inl (by simp [hp])
    · exact Or.inr ⟨e, by simp [hp]⟩

namespace Lock

/-- What waits at a lock has no part in letting others in. -/
theorem settle_queue (l : Lock P) (q q' : List (P × Mode)) :
    ({ l with queue := q' } : Lock P).settle q = l.settle q := by
  induction q generalizing l with
  | nil => rfl
  | cons e q ih =>
      have hroom : ({ l with queue := q' } : Lock P).HasRoom e.2 ↔ l.HasRoom e.2 := by
        cases e.2 <;> exact Iff.rfl
      have hhold : ({ l with queue := q' } : Lock P).hold e.1 e.2
          = { l.hold e.1 e.2 with queue := q' } := by cases e.2 <;> rfl
      unfold settle
      simp only [hroom, hhold, ih]

/-- One more request at the end of a queue. -/
theorem settle_concat (l : Lock P) (q : List (P × Mode)) (e : P × Mode) :
    l.settle (q ++ [e]) =
      if (l.settle q).2.queue = [] ∧ (l.settle q).2.HasRoom e.2 then
        ((l.settle q).1 ++ [e], (l.settle q).2.hold e.1 e.2)
      else ((l.settle q).1, { (l.settle q).2 with queue := (l.settle q).2.queue ++ [e] }) := by
  induction q generalizing l with
  | nil =>
      have hroom : ({ l with queue := [] } : Lock P).HasRoom e.2 ↔ l.HasRoom e.2 := by
        cases e.2 <;> exact Iff.rfl
      simp only [List.nil_append, settle, hroom, true_and]
      split
      · cases e.2 <;> rfl
      · rfl
  | cons e' q ih =>
      rw [List.cons_append]
      unfold settle
      split
      · rw [ih]
        split <;> rfl
      · simp

/-- Requests that all get in make way for those behind them. -/
theorem settle_append_of_nil {l : Lock P} {q : List (P × Mode)} (h : (l.settle q).2.queue = [])
    (q' : List (P × Mode)) :
    l.settle (q ++ q') = (q ++ ((l.settle q).2.settle q').1, ((l.settle q).2.settle q').2) := by
  induction q generalizing l with
  | nil => simp [settle, settle_queue]
  | cons e q ih =>
      unfold settle at h
      rw [List.cons_append]
      split at h
      · rename_i hroom
        have hrest := ih h
        simp only [settle, if_pos hroom, hrest, List.cons_append]
      · cases h

end Lock

namespace FairLock

/-- **The lock of a list of outstanding requests.** -/
def ofRequests (es : List (P × Mode)) : FairLock P where
  toLock := (free.settle es).2
  exclusive := Lock.settle_exclusive free.exclusive es
  saturated := Lock.settle_saturated _ es

theorem settle_free (es : List (P × Mode)) : ((free : FairLock P).settle es).1 = admitted es := by
  cases es with
  | nil => rfl
  | cons e es =>
      obtain ⟨p, m⟩ := e
      cases m with
      | read =>
          rw [Lock.settle_reads_of_idle ⟨rfl, rfl⟩]
          rfl
      | write =>
          rw [Lock.settle_write_of_idle ⟨rfl, rfl⟩]
          rfl

theorem ofRequests_queue (es : List (P × Mode)) : (ofRequests es).queue = queued es := by
  have hall := Lock.settle_append (free : FairLock P).toLock es
  rw [settle_free] at hall
  exact List.append_cancel_left (hall.trans (admitted_append_queued es).symm)

theorem ofRequests_writer (es : List (P × Mode)) (p : P) :
    (ofRequests es).writer = some p ↔ (p, .write) ∈ admitted es := by
  show ((free : FairLock P).settle es).2.writer = _ ↔ _
  cases es with
  | nil => simp [Lock.settle, admitted, free]
  | cons e es =>
      obtain ⟨q, m⟩ := e
      cases m with
      | read =>
          have hno : (p, Mode.write) ∉ es.takeWhile Lock.isRead := fun hmem => by
            have hread := List.mem_takeWhile_imp hmem
            cases hread
          rw [Lock.settle_reads_of_idle ⟨rfl, rfl⟩]
          simp [admitted, hno]
      | write =>
          rw [Lock.settle_write_of_idle ⟨rfl, rfl⟩]
          simp [admitted, eq_comm]

theorem mem_ofRequests_readers (es : List (P × Mode)) (p : P) :
    p ∈ (ofRequests es).readers ↔ (p, .read) ∈ admitted es := by
  show p ∈ ((free : FairLock P).settle es).2.readers ↔ _
  cases es with
  | nil => simp [Lock.settle, admitted, free]
  | cons e es =>
      obtain ⟨q, m⟩ := e
      cases m with
      | read =>
          have hread : ∀ m, (p, m) ∈ es.takeWhile Lock.isRead → m = .read := fun m hmem => by
            simpa [Lock.isRead] using List.mem_takeWhile_imp hmem
          rw [Lock.settle_reads_of_idle ⟨rfl, rfl⟩]
          simp only [admitted, List.takeWhile_cons_of_pos (show Lock.isRead (q, Mode.read) from rfl),
            List.map_cons, List.toFinset_cons, Finset.mem_insert, List.mem_toFinset, List.mem_map,
            Prod.exists, exists_and_right, exists_eq_right, List.mem_cons, Prod.mk.injEq, and_true]
          refine or_congr_right ⟨?_, fun hm => ⟨_, hm⟩⟩
          rintro ⟨m, hm⟩
          rwa [hread m hm] at hm
      | write =>
          rw [Lock.settle_write_of_idle ⟨rfl, rfl⟩]
          simp [admitted]

/-- The holders are those whose requests are granted. -/
theorem ofRequests_mode (es : List (P × Mode)) (p : P) (m : Mode) :
    (ofRequests es).mode p = some m ↔ (p, m) ∈ admitted es := by
  cases m with
  | read =>
      rw [Lock.mode_eq_read_iff (ofRequests es).exclusive, mem_ofRequests_readers]
  | write => rw [Lock.mode_eq_write_iff, ofRequests_writer]

theorem ofRequests_mode_eq_none (es : List (P × Mode)) (p : P) :
    (ofRequests es).mode p = none ↔ ∀ m, (p, m) ∉ admitted es := by
  rw [Option.eq_none_iff_forall_ne_some]
  exact forall_congr' fun m => not_congr (ofRequests_mode es p m)

/-- **Asking** is putting a request at the end of the list. -/
theorem ask_ofRequests (es : List (P × Mode)) (p : P) (m : Mode) :
    ((ofRequests es).ask p m).2.toLock = (ofRequests (es ++ [(p, m)])).toLock ∧
      admitted (es ++ [(p, m)])
        = if ((ofRequests es).ask p m).1 then admitted es ++ [(p, m)] else admitted es := by
  have hconcat := Lock.settle_concat (free : FairLock P).toLock es (p, m)
  rw [← settle_free, ← settle_free]
  unfold ask
  split
  · rename_i hroom
    have hgranted := hconcat.trans (if_pos hroom)
    exact ⟨(congrArg Prod.snd hgranted).symm, by simpa using congrArg Prod.fst hgranted⟩
  · rename_i hroom
    have hwaits := hconcat.trans (if_neg hroom)
    exact ⟨(congrArg Prod.snd hwaits).symm, by simpa using congrArg Prod.fst hwaits⟩

theorem drop_ofRequests (es : List (P × Mode)) (p : P) :
    (ofRequests es).drop p = { (ofRequests (kept p es)).toLock with queue := queued es } := by
  have hkept : ∀ e, e ∈ admitted (kept p es) ↔ e ∈ admitted es ∧ e.1 ≠ p := by
    intro e
    rw [admitted_of_together (kept_together p es), kept, List.mem_filter]
    simp
  have hreaders : ((ofRequests es).drop p).readers = (ofRequests (kept p es)).readers := by
    ext q
    rw [mem_ofRequests_readers, hkept]
    simp [Lock.drop, mem_ofRequests_readers, and_comm]
  have hwriter : ((ofRequests es).drop p).writer = (ofRequests (kept p es)).writer := by
    ext q
    rw [ofRequests_writer, hkept, ← ofRequests_writer]
    simp only [Lock.drop]
    split
    · rename_i hp
      simp [hp, eq_comm]
    · rename_i hp
      refine ⟨fun hq => ⟨hq, ?_⟩, fun hq => hq.1⟩
      rintro rfl
      exact hp hq
  calc (ofRequests es).drop p
      = ⟨((ofRequests es).drop p).readers, ((ofRequests es).drop p).writer, (ofRequests es).queue⟩ :=
        rfl
    _ = _ := by rw [hreaders, hwriter, ofRequests_queue]

/-- **Leaving** is taking the granted requests of a process out of the list. -/
theorem leave_ofRequests (es : List (P × Mode)) (p : P) :
    ((ofRequests es).leave p).2.toLock = (ofRequests (quit p es)).toLock ∧
      admitted (quit p es) = kept p es ++ ((ofRequests es).leave p).1 := by
  have hnil : ((free : FairLock P).settle (kept p es)).2.queue = [] := by
    show (ofRequests (kept p es)).queue = []
    rw [ofRequests_queue, queued, admitted_of_together (kept_together p es), List.drop_length]
  have happend := Lock.settle_append_of_nil hnil (queued es)
  have hsettle : ((ofRequests es).drop p).settle (ofRequests es).queue
      = (ofRequests (kept p es)).settle (queued es) := by
    rw [drop_ofRequests, Lock.settle_queue, ofRequests_queue]
  rw [← settle_free (quit p es)]
  show (((ofRequests es).drop p).settle (ofRequests es).queue).2 = _ ∧
    _ = kept p es ++ (((ofRequests es).drop p).settle (ofRequests es).queue).1
  rw [hsettle]
  exact ⟨(congrArg Prod.snd happend).symm, congrArg Prod.fst happend⟩

end FairLock

end RwLock
