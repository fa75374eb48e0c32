import Mathlib.Logic.Function.Basic
import Soros.Lib.Machine
import Soros.Lib.Prog

set_option autoImplicit false

/-! # Threads that share data under mutexes

Threads make calls on shared data. A call is a program (`Prog`) that locks and unlocks mutexes and
acts on the data; the operations of all threads are interleaved in any order, and a thread that
locks a mutex which is locked is blocked.

`Guarded` is a discipline that a call can be checked for on its own: it does all its work under
one mutex, the outer one, and has unlocked what else it locks when it unlocks that. Of threads
that keep to it

* the calls return what they would if they were made one at a time, in the order in which they
  return (`run_serial`);
* some thread can always go on (`run_progress`), and a call that has begun its work is not blocked
  any more (`run_unblocked`). -/

/-- An operation on the mutexes `L` or, as one of `A`, on the data. -/
inductive MutexOp (L A : Type) where
  | lock (l : L)
  | unlock (l : L)
  /-- A new mutex takes the place of `l`. -/
  | fresh (l : L)
  | act (a : A)

/-- Only an action on the data has an answer. -/
def MutexOp.Result {L A : Type} (Res : A → Type) : MutexOp L A → Type
  | .act a => Res a
  | _ => Unit

namespace Threads

variable {T L A S C ε α : Type} {Res : A → Type}

/-- The programs of threads. -/
abbrev Code (L : Type) {A : Type} (Res : A → Type) (ε α : Type) : Type :=
  Prog (MutexOp L A) (MutexOp.Result Res) ε α

/-- A call has returned. -/
structure Return (T C ε α : Type) where
  thread : T
  call : C
  result : Except ε α

inductive Input (T C : Type) where
  /-- A thread begins a call. -/
  | call (t : T) (c : C)
  /-- A thread performs its next operation, if that is not blocked. -/
  | go (t : T)

/-- The threads, what each of them has left to do, and what they share. -/
structure State (T L S C : Type) {A : Type} (Res : A → Type) (ε α : Type) where
  owner : L → Option T
  data : S
  running : T → Option (C × Code L Res ε α)

section

variable [DecidableEq L] (apply : (a : A) → S → Res a × S) (body : C → Code L Res ε α)

/-- The answer to an operation of the thread, and what is shared after it; `none` while the thread
is blocked. -/
def perform (t : T) (s : State T L S C Res ε α) :
    (op : MutexOp L A) → Option (op.Result Res × State T L S C Res ε α)
  | .lock l =>
      if (s.owner l).isNone then
        some ((), { s with owner := Function.update s.owner l (some t) })
      else none
  | .unlock l => some ((), { s with owner := Function.update s.owner l none })
  | .fresh l => some ((), { s with owner := Function.update s.owner l none })
  | .act a => some ((apply a s.data).1, { s with data := (apply a s.data).2 })

/-- A thread goes on with what is left of its call, and returns if nothing is. -/
def resume [DecidableEq T] (t : T) (c : C) (s : State T L S C Res ε α) :
    Code L Res ε α → State T L S C Res ε α × List (Return T C ε α)
  | .done r => ({ s with running := Function.update s.running t none }, [⟨t, c, r⟩])
  | rest => ({ s with running := Function.update s.running t (some (c, rest)) }, [])

def step [DecidableEq T] (s : State T L S C Res ε α) :
    Input T C → State T L S C Res ε α × List (Return T C ε α)
  | .call t c =>
      match s.running t with
      | none => resume t c s (body c)
      | some _ => (s, [])
  | .go t =>
      match s.running t with
      | some (c, .call op cont) =>
          match perform apply t s op with
          | some (answer, s') => resume t c s' (cont answer)
          | none => (s, [])
      | _ => (s, [])

/-- Threads on the data `d`. -/
def machine [DecidableEq T] (d : S) : IOMachine (State T L S C Res ε α) (Input T C) (Return T C ε α) where
  start := { owner := fun _ => none, data := d, running := fun _ => none }
  step := step apply body

/-- The next operation of the thread is not blocked. -/
def ready (s : State T L S C Res ε α) (t : T) : Bool :=
  match s.running t with
  | some (_, .call op _) => (perform apply t s op).isSome
  | _ => false

/-! ## One call at a time -/

/-- What a program returns, and what becomes of the data, if no other thread is there. -/
def alone : Code L Res ε α → S → Except ε α × S
  | .done r, d => (r, d)
  | .call (.lock _) cont, d => alone (cont ()) d
  | .call (.unlock _) cont, d => alone (cont ()) d
  | .call (.fresh _) cont, d => alone (cont ()) d
  | .call (.act a) cont, d => alone (cont (apply a d).1) (apply a d).2

/-- The machine that makes one call at a time. -/
def serial (d : S) : IOMachine S (T × C) (Return T C ε α) where
  start := d
  step d call :=
    let r := alone apply (body call.2) d
    (r.2, [⟨call.1, call.2, r.1⟩])

/-! ## The discipline -/

/-- How far a call has got: it has not begun, works with the inner mutexes `held`, or has done its
work. -/
inductive Stage (L : Type) where
  | before
  | inside (held : List L)
  | after

/-- The account of what a call has locked. -/
def guard (outer : L) : Prog.Monitor (MutexOp L A) (MutexOp.Result Res) (Stage L) where
  allows
    | .before, .lock l => l = outer
    | .inside held, .lock l => l ≠ outer ∧ l ∉ held
    | .inside held, .unlock l => if l = outer then held = [] else l ∈ held
    | .inside held, .fresh l => l ≠ outer ∧ l ∉ held
    | .inside _, .act _ => True
    | _, _ => False
  next
    | .before, _, _ => .inside []
    | .inside held, .lock l, _ => .inside (l :: held)
    | .inside held, .unlock l, _ =>
        if l = outer then .after else .inside (held.filter fun l' => l' ≠ l)
    | .inside held, _, _ => .inside held
    | .after, _, _ => .after

/-- **A call that does all its work under the mutex `outer`.** -/
def Guarded (outer : L) (c : Code L Res ε α) : Prop :=
  c.Obeys (guard outer) (fun stage _ => stage = .after) .before

/-- Its work: with the inner mutexes `held` locked at first, it ends by unlocking the outer one. -/
def Ends (outer : L) (held : List L) (c : Code L Res ε α) : Prop :=
  c.Obeys (guard outer) (fun stage _ => stage = .after) (.inside held)

end

/-! Rules for calls that keep to the discipline, one for each operation. -/

section

variable [DecidableEq L] {outer l : L} {held : List L}

theorem Guarded.lock {cont : Unit → Code L Res ε α} (h : Ends outer [] (cont ())) :
    Guarded outer (.call (.lock outer) cont : Code L Res ε α) := ⟨rfl, fun _ => h⟩

theorem Ends.act {a : A} {cont : Res a → Code L Res ε α} (h : ∀ r, Ends outer held (cont r)) :
    Ends outer held (.call (.act a) cont : Code L Res ε α) := ⟨trivial, h⟩

theorem Ends.fresh {cont : Unit → Code L Res ε α} (hl : l ≠ outer) (hfree : l ∉ held)
    (h : Ends outer held (cont ())) : Ends outer held (.call (.fresh l) cont : Code L Res ε α) :=
  ⟨⟨hl, hfree⟩, fun _ => h⟩

theorem Ends.lock {cont : Unit → Code L Res ε α} (hl : l ≠ outer) (hfree : l ∉ held)
    (h : Ends outer (l :: held) (cont ())) : Ends outer held (.call (.lock l) cont : Code L Res ε α) :=
  ⟨⟨hl, hfree⟩, fun _ => h⟩

theorem Ends.unlock {cont : Unit → Code L Res ε α} (hl : l ≠ outer) (hfree : l ∉ held)
    (h : Ends outer held (cont ())) :
    Ends outer (l :: held) (.call (.unlock l) cont : Code L Res ε α) := by
  have hrest : (l :: held).filter (fun l' => l' ≠ l) = held := by
    rw [List.filter_cons_of_neg (by simp), List.filter_eq_self]
    intro l' hl'
    simpa using fun heq : l' = l => hfree (heq ▸ hl')
  refine ⟨?_, fun _ => ?_⟩
  · simp [guard, hl]
  · simp only [guard, if_neg hl, hrest]
    exact h

theorem Ends.leave {cont : Unit → Code L Res ε α} {r : Except ε α} (h : cont () = .done r) :
    Ends outer [] (.call (.unlock outer) cont : Code L Res ε α) := by
  refine ⟨?_, fun _ => ?_⟩
  · simp [guard]
  · simp only [guard, if_true]
    show (cont ()).Obeys _ _ _
    rw [h]
    exact rfl

end

/-! ## Inside the outer mutex -/

section

variable [DecidableEq L] {apply : (a : A) → S → Res a × S} {body : C → Code L Res ε α} {outer : L}

/-- The thread `t` has locked the outer mutex and the inner ones of `held`, and nobody else has
locked any. -/
def Owns (outer : L) (t : T) (held : List L) (owner : L → Option T) : Prop :=
  ∀ l, owner l = if l = outer ∨ l ∈ held then some t else none

theorem Owns.lock {t : T} {held : List L} {owner : L → Option T} (h : Owns outer t held owner)
    (l : L) : Owns outer t (l :: held) (Function.update owner l (some t)) := by
  intro l'
  by_cases hl : l' = l
  · simp [hl]
  · rw [Function.update_of_ne hl, h l']
    simp [hl]

theorem Owns.unlock {t : T} {held : List L} {owner : L → Option T} (h : Owns outer t held owner)
    {l : L} (hl : l ≠ outer) :
    Owns outer t (held.filter fun l' => l' ≠ l) (Function.update owner l none) := by
  intro l'
  by_cases heq : l' = l
  · simp [heq, hl]
  · rw [Function.update_of_ne heq, h l']
    simp [heq]

/-- A thread that has the outer mutex, and will return `r` and leave the data `d`. -/
structure Works (apply : (a : A) → S → Res a × S) (outer : L) (t : T) (r : Except ε α) (d : S)
    (s : State T L S C Res ε α) (rest : Code L Res ε α) (held : List L) : Prop where
  obeys : rest.Obeys (guard outer) (fun stage _ => stage = .after) (.inside held)
  owns : Owns outer t held s.owner
  alone : Threads.alone apply rest s.data = (r, d)

/-- **Inside the outer mutex no operation is blocked**, and the last one unlocks it. -/
theorem Works.perform {t : T} {r : Except ε α} {d : S} {s : State T L S C Res ε α}
    {op : MutexOp L A} {cont : op.Result Res → Code L Res ε α} {held : List L}
    (h : Works apply outer t r d s (.call op cont) held) :
    ∃ answer s', Threads.perform apply t s op = some (answer, s') ∧ s'.running = s.running ∧
      ((∃ held', Works apply outer t r d s' (cont answer) held') ∨
        cont answer = .done r ∧ s'.data = d ∧ ∀ l, s'.owner l = none) := by
  obtain ⟨⟨hallows, hcont⟩, howns, halone⟩ := h
  cases op with
  | lock l =>
      obtain ⟨hl, hfree⟩ : l ≠ outer ∧ l ∉ held := hallows
      have hnone : s.owner l = none := by rw [howns l, if_neg (by simp [hl, hfree])]
      refine ⟨(), _, if_pos (by rw [hnone]; rfl), rfl, Or.inl ⟨l :: held, hcont (), ?_, halone⟩⟩
      exact howns.lock l
  | fresh l =>
      obtain ⟨hl, hfree⟩ : l ≠ outer ∧ l ∉ held := hallows
      have hnone : s.owner l = none := by rw [howns l, if_neg (by simp [hl, hfree])]
      refine ⟨(), _, rfl, rfl, Or.inl ⟨held, hcont (), ?_, halone⟩⟩
      dsimp only
      rw [← hnone, Function.update_eq_self]
      exact howns
  | act a => exact ⟨_, _, rfl, rfl, Or.inl ⟨held, hcont _, howns, halone⟩⟩
  | unlock l =>
      have hnext := hcont ()
      by_cases hl : l = outer
      · subst hl
        obtain rfl : held = [] := by simpa [guard] using hallows
        have hfree : ∀ l', Function.update s.owner l none l' = none := by
          intro l'
          by_cases hl' : l' = l
          · rw [hl', Function.update_self]
          · rw [Function.update_of_ne hl', howns l', if_neg (by simp [hl'])]
        -- when the outer mutex is unlocked, the call has nothing left to do
        simp only [guard, if_true] at hnext
        replace halone : Threads.alone apply (cont ()) s.data = (r, d) := halone
        cases hcont : cont () with
        | done r' =>
            rw [hcont] at halone
            cases halone
            exact ⟨(), _, rfl, rfl, Or.inr ⟨hcont, rfl, hfree⟩⟩
        | call op cont' =>
            rw [hcont] at hnext
            exact absurd hnext.1 (by simp)
      · refine ⟨(), _, rfl, rfl, Or.inl ⟨held.filter fun l' => l' ≠ l, ?_, howns.unlock hl, halone⟩⟩
        simpa [guard, hl] using hnext

/-! ## Any number of threads -/

/-- How things stand when the calls that have returned have left the data `d`: a thread that has
the outer mutex works on `d`, and all others have not begun. -/
structure Serialized (apply : (a : A) → S → Res a × S) (body : C → Code L Res ε α) (outer : L)
    (d : S) (s : State T L S C Res ε α) : Prop where
  begins : ∀ t c rest, s.running t = some (c, rest) → s.owner outer ≠ some t → rest = body c
  free : s.owner outer = none → s.data = d ∧ ∀ l, s.owner l = none
  works : ∀ t, s.owner outer = some t → ∃ c rest held, s.running t = some (c, rest) ∧
    Works apply outer t (alone apply (body c) d).1 (alone apply (body c) d).2 s rest held

/-- A call begins by locking the outer mutex. -/
theorem Guarded.locks {c : Code L Res ε α} (h : Guarded outer c) :
    ∃ cont, c = .call (.lock outer) cont ∧
      (cont ()).Obeys (guard outer) (fun stage _ => stage = .after) (.inside []) := by
  cases c with
  | done r => cases h
  | call op cont =>
      cases op with
      | lock l =>
          obtain ⟨rfl, hnext⟩ : l = outer ∧ _ := h
          exact ⟨cont, rfl, hnext ()⟩
      | unlock | fresh | act => exact h.1.elim

/-- A call that works is not done. -/
theorem Works.not_done {t : T} {r r' : Except ε α} {d : S} {s : State T L S C Res ε α}
    {held : List L} (h : Works apply outer t r d s (.done r') held) : False := by
  cases h.obeys

/-- A thread begins a call. -/
theorem Serialized.idle [DecidableEq T] {d : S} {s : State T L S C Res ε α}
    (h : Serialized apply body outer d s) {t : T} (ht : s.running t = none) (c : C) :
    Serialized apply body outer d
      { s with running := Function.update s.running t (some (c, body c)) } := by
  refine ⟨fun t' c' rest hrunning howner => ?_, h.free, fun t' howner => ?_⟩
  · dsimp only at hrunning
    by_cases heq : t' = t
    · rw [heq, Function.update_self] at hrunning
      cases hrunning
      rfl
    · rw [Function.update_of_ne heq] at hrunning
      exact h.begins t' c' rest hrunning howner
  · obtain ⟨c', rest, held, hrunning, hworks⟩ := h.works t' howner
    have hne : t' ≠ t := fun heq => by
      rw [heq, ht] at hrunning
      cases hrunning
    refine ⟨c', rest, held, ?_, hworks.obeys, hworks.owns, hworks.alone⟩
    dsimp only
    rw [Function.update_of_ne hne]
    exact hrunning

/-- A thread locks the outer mutex. -/
theorem Serialized.enter [DecidableEq T] {d : S} {s : State T L S C Res ε α}
    (h : Serialized apply body outer d s) {t : T} {c : C}
    {cont : Unit → Code L Res ε α} (hbody : body c = .call (.lock outer) cont)
    (hobeys : (cont ()).Obeys (guard outer) (fun stage _ => stage = .after) (.inside []))
    (hfree : s.owner outer = none) :
    Serialized apply body outer d
      { owner := Function.update s.owner outer (some t), data := s.data
        running := Function.update s.running t (some (c, cont ())) } := by
  obtain ⟨hdata, hnone⟩ := h.free hfree
  refine ⟨fun t' c' rest hrunning howner => ?_, fun hno => ?_, fun t' howner => ?_⟩
  · dsimp only at hrunning howner
    rw [Function.update_self] at howner
    have hne : t' ≠ t := fun heq => howner (by rw [heq])
    rw [Function.update_of_ne hne] at hrunning
    exact h.begins t' c' rest hrunning (by simp [hfree])
  · dsimp only at hno
    rw [Function.update_self] at hno
    cases hno
  · dsimp only at howner
    rw [Function.update_self] at howner
    cases howner
    refine ⟨c, cont (), [], Function.update_self _ _ _, hobeys, fun l => ?_, ?_⟩
    · by_cases hl : l = outer
      · simp [hl]
      · simp [hl, hnone l]
    · rw [hbody, hdata]
      rfl

/-- A thread that works goes on. -/
theorem Serialized.work [DecidableEq T] {d : S} {s s' : State T L S C Res ε α}
    (h : Serialized apply body outer d s) {t : T} {c : C} {rest : Code L Res ε α} {held : List L}
    (howner : s.owner outer = some t) (hrunning : s'.running = s.running)
    (hworks : Works apply outer t (alone apply (body c) d).1 (alone apply (body c) d).2 s' rest held) :
    Serialized apply body outer d
      { s' with running := Function.update s'.running t (some (c, rest)) } := by
  have howner' : s'.owner outer = some t := by rw [hworks.owns outer, if_pos (Or.inl rfl)]
  refine ⟨fun t' c' rest' hrun hno => ?_, fun hno => ?_, fun t' hself => ?_⟩
  · dsimp only at hrun hno
    rw [howner'] at hno
    have hne : t' ≠ t := fun heq => hno (by rw [heq])
    rw [Function.update_of_ne hne, hrunning] at hrun
    refine h.begins t' c' rest' hrun ?_
    rw [howner]
    exact hno
  · dsimp only at hno
    rw [howner'] at hno
    cases hno
  · dsimp only at hself
    obtain rfl : t = t' := Option.some.inj (howner'.symm.trans hself)
    exact ⟨c, rest, held, Function.update_self _ _ _, hworks.obeys, hworks.owns, hworks.alone⟩

/-- A thread unlocks the outer mutex and returns. -/
theorem Serialized.leave [DecidableEq T] {d d' : S} {s s' : State T L S C Res ε α}
    (h : Serialized apply body outer d s) {t : T} (howner : s.owner outer = some t)
    (hrunning : s'.running = s.running) (hdata : s'.data = d') (hfree : ∀ l, s'.owner l = none) :
    Serialized apply body outer d' { s' with running := Function.update s'.running t none } := by
  refine ⟨fun t' c' rest hrun _ => ?_, fun _ => ⟨hdata, hfree⟩, fun t' hself => ?_⟩
  · dsimp only at hrun
    by_cases heq : t' = t
    · rw [heq, Function.update_self] at hrun
      cases hrun
    · rw [Function.update_of_ne heq, hrunning] at hrun
      refine h.begins t' c' rest hrun ?_
      rw [howner]
      exact fun hno => heq (Option.some.inj hno).symm
  · dsimp only at hself
    rw [hfree outer] at hself
    cases hself

/-- **One step**: a call that returns is the next one in the serial order. -/
theorem Serialized.step [DecidableEq T] (hbody : ∀ c, Guarded outer (body c)) {d : S}
    {s : State T L S C Res ε α} (h : Serialized apply body outer d s) (i : Input T C) (d₀ : S) :
    ∃ d', Serialized apply body outer d' (Threads.step apply body s i).1 ∧
      (serial apply body d₀).exec d ((Threads.step apply body s i).2.map fun e => (e.thread, e.call))
        = (d', (Threads.step apply body s i).2) := by
  cases i with
  | call t c =>
      dsimp only [Threads.step]
      cases ht : s.running t with
      | some r => exact ⟨d, h, rfl⟩
      | none =>
          have hnext := h.idle ht c
          obtain ⟨cont, hlocks, -⟩ := (hbody c).locks
          rw [hlocks] at hnext ⊢
          exact ⟨d, hnext, rfl⟩
  | go t =>
      dsimp only [Threads.step]
      cases ht : s.running t with
      | none => exact ⟨d, h, rfl⟩
      | some r =>
          obtain ⟨c, rest⟩ := r
          by_cases howner : s.owner outer = some t
          · obtain ⟨c', rest', held, hrunning, hworks⟩ := h.works t howner
            obtain ⟨rfl, rfl⟩ : c = c' ∧ rest = rest' := by simpa using ht.symm.trans hrunning
            cases rest with
            | done r => exact hworks.not_done.elim
            | call op cont =>
                obtain ⟨answer, s', hperform, hsame, ⟨held', hnext⟩ | ⟨hdone, hdata, hfree⟩⟩ :=
                  hworks.perform
                · have hgoes := h.work howner hsame hnext
                  simp only [hperform]
                  cases hcont : cont answer with
                  | done r =>
                      rw [hcont] at hnext
                      exact hnext.not_done.elim
                  | call op' cont' =>
                      rw [hcont] at hgoes
                      exact ⟨d, hgoes, rfl⟩
                · simp only [hperform, hdone]
                  exact ⟨_, h.leave howner hsame hdata hfree, rfl⟩
          · obtain rfl := h.begins t c rest ht howner
            obtain ⟨cont, hlocks, hobeys⟩ := (hbody c).locks
            rw [hlocks]
            dsimp only [Threads.perform]
            cases hfree : s.owner outer with
            | some t' => exact ⟨d, h, rfl⟩
            | none =>
                have hnext := h.enter (t := t) hlocks hobeys hfree
                simp only [Option.isNone_none, if_true]
                cases hcont : cont () with
                | done r =>
                    rw [hcont] at hobeys
                    cases hobeys
                | call op' cont' =>
                    rw [hcont] at hnext
                    exact ⟨d, hnext, rfl⟩

/-- A thread that works is not blocked. -/
theorem Serialized.ready_of_owner {d : S} {s : State T L S C Res ε α}
    (h : Serialized apply body outer d s) {t : T} (howner : s.owner outer = some t) :
    ready apply s t = true := by
  obtain ⟨c, rest, held, hrunning, hworks⟩ := h.works t howner
  cases rest with
  | done r => exact hworks.not_done.elim
  | call op cont =>
      obtain ⟨answer, s', hperform, -⟩ := hworks.perform
      simp [ready, hrunning, hperform]

variable [DecidableEq T]

theorem run_serialized (hbody : ∀ c, Guarded outer (body c)) (d : S) (inputs : List (Input T C)) :
    let r := (machine apply body d).run inputs
    Serialized apply body outer ((serial apply body d).run (r.2.map fun e => (e.thread, e.call))).1
      r.1 ∧ ((serial apply body d).run (r.2.map fun e => (e.thread, e.call))).2 = r.2 := by
  refine IOMachine.run_induction (M := machine apply body d) (fun s log =>
    Serialized apply body outer ((serial apply body d).run (log.map fun e => (e.thread, e.call))).1 s ∧
      ((serial apply body d).run (log.map fun e => (e.thread, e.call))).2 = log)
    ⟨⟨?_, fun _ => ⟨rfl, fun l => rfl⟩, ?_⟩, rfl⟩ (fun s log i h => ?_) inputs
  · rintro t c rest ⟨⟩
  · rintro t ⟨⟩
  · obtain ⟨d', hnext, hserial⟩ := h.1.step hbody i d
    rw [List.map_append, IOMachine.run_append, h.2, show (machine apply body d).step s i
      = Threads.step apply body s i from rfl, hserial]
    exact ⟨hnext, rfl⟩

variable (apply) in
/-- **Threads under one mutex are serializable.** In every run, the calls return what they would
if they were made one at a time in the order in which they return; and while nobody has the outer
mutex, the data is what these calls have left. -/
theorem run_serial (hbody : ∀ c, Guarded outer (body c)) (d : S) (inputs : List (Input T C)) :
    let r := (machine apply body d).run inputs
    let r' := (serial apply body d).run (r.2.map fun e => (e.thread, e.call))
    r'.2 = r.2 ∧ (r.1.owner outer = none → r.1.data = r'.1) := by
  obtain ⟨hserialized, hsame⟩ := run_serialized hbody d inputs
  exact ⟨hsame, fun hfree => (hserialized.free hfree).1⟩

/-- **Only the outer mutex is waited for**, and only by calls that have not begun their work. -/
theorem run_unblocked (hbody : ∀ c, Guarded outer (body c)) (d : S) (inputs : List (Input T C))
    (t : T) (c : C) (rest : Code L Res ε α)
    (hrunning : ((machine apply body d).run inputs).1.running t = some (c, rest))
    (hblocked : ready apply ((machine apply body d).run inputs).1 t = false) :
    rest = body c ∧ ∃ t', t' ≠ t ∧ ((machine apply body d).run inputs).1.owner outer = some t' := by
  obtain ⟨h, -⟩ := run_serialized hbody d inputs
  generalize ((machine apply body d).run inputs).1 = s at h hrunning hblocked
  have hother : s.owner outer ≠ some t := fun howner => by
    rw [h.ready_of_owner howner] at hblocked
    cases hblocked
  obtain rfl := h.begins t c rest hrunning hother
  refine ⟨rfl, ?_⟩
  cases howner : s.owner outer with
  | some t' => exact ⟨t', fun heq => hother (by rw [howner, heq]), rfl⟩
  | none =>
      obtain ⟨cont, hlocks, -⟩ := (hbody c).locks
      simp [ready, hrunning, hlocks, Threads.perform, howner] at hblocked

/-- **No deadlock**: while calls are in progress, one of them can go on. -/
theorem run_progress (hbody : ∀ c, Guarded outer (body c)) (d : S) (inputs : List (Input T C))
    (t : T) (hcalls : ((machine apply body d).run inputs).1.running t ≠ none) :
    ∃ t', ready apply ((machine apply body d).run inputs).1 t' = true := by
  by_cases hready : ready apply ((machine apply body d).run inputs).1 t = true
  · exact ⟨t, hready⟩
  · obtain ⟨⟨c, rest⟩, hrunning⟩ := Option.ne_none_iff_exists'.1 hcalls
    obtain ⟨-, t', -, howner⟩ :=
      run_unblocked hbody d inputs t c rest hrunning (Bool.eq_false_iff.2 hready)
    exact ⟨t', (run_serialized hbody d inputs).1.ready_of_owner howner⟩

end

end Threads
