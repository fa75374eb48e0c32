import Mathlib.Data.List.Basic

set_option autoImplicit false

/-! # Machines that read inputs and emit outputs

A machine is a start state and a total step function. A run is a finite list of inputs;
`exec` returns the state it ends in and everything emitted on the way. An input that the
machine cannot take is a step that changes nothing, so every list of inputs is a run and a
property of all runs needs no side condition.

Invariants are stated over the state *and* the outputs so far (`run_induction`), which is
what a property of a whole history needs. `Along` restricts a run to the steps that meet a
condition. -/

/-- A deterministic machine with state `σ`, inputs `ι` and outputs `ο`. -/
structure IOMachine (σ ι ο : Type) where
  start : σ
  step : σ → ι → σ × List ο

namespace IOMachine

variable {σ ι ο : Type} (M : IOMachine σ ι ο)

/-- The state reached from `s` and the outputs emitted on the way. -/
def exec (s : σ) : List ι → σ × List ο
  | [] => (s, [])
  | i :: is =>
      let r := M.step s i
      let r' := exec r.1 is
      (r'.1, r.2 ++ r'.2)

/-- The run from the start state. -/
def run (is : List ι) : σ × List ο := M.exec M.start is

@[simp] theorem exec_nil (s : σ) : M.exec s [] = (s, []) := rfl

theorem exec_cons (s : σ) (i : ι) (is : List ι) :
    M.exec s (i :: is)
      = ((M.exec (M.step s i).1 is).1, (M.step s i).2 ++ (M.exec (M.step s i).1 is).2) := rfl

theorem exec_append (s : σ) (is js : List ι) :
    M.exec s (is ++ js)
      = ((M.exec (M.exec s is).1 js).1, (M.exec s is).2 ++ (M.exec (M.exec s is).1 js).2) := by
  induction is generalizing s with
  | nil => simp
  | cons i is ih => simp [exec_cons, ih]

theorem run_append (is js : List ι) :
    M.run (is ++ js)
      = ((M.exec (M.run is).1 js).1, (M.run is).2 ++ (M.exec (M.run is).1 js).2) :=
  M.exec_append _ _ _

theorem run_concat (is : List ι) (i : ι) :
    M.run (is ++ [i]) = ((M.step (M.run is).1 i).1, (M.run is).2 ++ (M.step (M.run is).1 i).2) := by
  rw [run_append]
  simp [exec_cons]

/-- Every step of the run from `s` meets `C`. -/
def Along (C : σ → ι → Prop) : σ → List ι → Prop
  | _, [] => True
  | s, i :: is => C s i ∧ Along C (M.step s i).1 is

instance decidableAlong {C : σ → ι → Prop} [∀ s i, Decidable (C s i)] :
    (s : σ) → (is : List ι) → Decidable (M.Along C s is)
  | _, [] => isTrue trivial
  | s, i :: is =>
      @instDecidableAnd _ _ _ (decidableAlong (M.step s i).1 is)

theorem along_append (C : σ → ι → Prop) (s : σ) (is js : List ι) :
    M.Along C s (is ++ js) ↔ M.Along C s is ∧ M.Along C (M.exec s is).1 js := by
  induction is generalizing s with
  | nil => simp [Along]
  | cons i is ih => simp [Along, exec_cons, ih, and_assoc]

theorem along_of_forall {C : σ → ι → Prop} (h : ∀ s i, C s i) (s : σ) (is : List ι) :
    M.Along C s is := by
  induction is generalizing s with
  | nil => trivial
  | cons i is ih => exact ⟨h s i, ih _⟩

variable {M}

/-- **Induction along a run.** What holds of the state and the outputs at the beginning, and
is kept by every step that meets `C`, holds at the end of a run whose steps meet `C`. -/
theorem exec_induction_along {C : σ → ι → Prop} (P : σ → List ο → Prop)
    (hstep : ∀ s log i, C s i → P s log → P (M.step s i).1 (log ++ (M.step s i).2))
    (s : σ) (log : List ο) (h : P s log) (is : List ι) (hC : M.Along C s is) :
    P (M.exec s is).1 (log ++ (M.exec s is).2) := by
  induction is generalizing s log with
  | nil => simpa using h
  | cons i is ih =>
      have h' := ih _ _ (hstep s log i hC.1 h) hC.2
      simpa [exec_cons, List.append_assoc] using h'

/-- **Induction over a run** that any input may extend. -/
theorem exec_induction (P : σ → List ο → Prop)
    (hstep : ∀ s log i, P s log → P (M.step s i).1 (log ++ (M.step s i).2))
    (s : σ) (log : List ο) (h : P s log) (is : List ι) :
    P (M.exec s is).1 (log ++ (M.exec s is).2) :=
  exec_induction_along (C := fun _ _ => True) P (fun s log i _ => hstep s log i) s log h is
    (M.along_of_forall (fun _ _ => trivial) s is)

/-- **Unwinding.** Leave out the inputs that are not `on`. If an input left out keeps the two
states related and emits nothing that is seen, and every other input keeps them related and
emits the same as far as it is seen, then the two runs emit the same as far as it is seen. -/
theorem exec_unwinding {R : σ → σ → Prop} (on : ι → Bool) (seen : ο → Bool)
    (hoff : ∀ s s' i, R s s' → on i = false → R (M.step s i).1 s' ∧ (M.step s i).2.filter seen = [])
    (hon : ∀ s s' i, R s s' → on i = true → R (M.step s i).1 (M.step s' i).1 ∧
      (M.step s i).2.filter seen = (M.step s' i).2.filter seen)
    {s s' : σ} (h : R s s') (is : List ι) :
    R (M.exec s is).1 (M.exec s' (is.filter on)).1 ∧
    (M.exec s is).2.filter seen = (M.exec s' (is.filter on)).2.filter seen := by
  induction is generalizing s s' with
  | nil => exact ⟨h, rfl⟩
  | cons i is ih =>
      rw [exec_cons, List.filter_append]
      cases hi : on i with
      | false =>
          obtain ⟨hnext, hnone⟩ := hoff s s' i h hi
          rw [hnone, List.nil_append, List.filter_cons_of_neg (by simp [hi])]
          exact ih hnext
      | true =>
          obtain ⟨hnext, hsame⟩ := hon s s' i h hi
          obtain ⟨hend, hrest⟩ := ih hnext
          rw [List.filter_cons_of_pos hi, exec_cons, List.filter_append, hsame, hrest]
          exact ⟨hend, rfl⟩

/-- Induction over a run from the start state. -/
theorem run_induction (P : σ → List ο → Prop) (hstart : P M.start [])
    (hstep : ∀ s log i, P s log → P (M.step s i).1 (log ++ (M.step s i).2)) (is : List ι) :
    P (M.run is).1 (M.run is).2 := by
  simpa [run] using exec_induction P hstep M.start [] hstart is

/-- Induction over a run from the start state whose steps meet `C`. -/
theorem run_induction_along {C : σ → ι → Prop} (P : σ → List ο → Prop) (hstart : P M.start [])
    (hstep : ∀ s log i, C s i → P s log → P (M.step s i).1 (log ++ (M.step s i).2))
    (is : List ι) (hC : M.Along C M.start is) :
    P (M.run is).1 (M.run is).2 := by
  simpa [run] using exec_induction_along P hstep M.start [] hstart is hC

/-- A state invariant: kept by every step, it holds in every state reached. -/
theorem run_invariant (P : σ → Prop) (hstart : P M.start)
    (hstep : ∀ s i, P s → P (M.step s i).1) (is : List ι) : P (M.run is).1 :=
  run_induction (fun s _ => P s) hstart (fun s _ i => hstep s i) is

end IOMachine

namespace IOMachine

variable {σ ι ο σ' ι' ο' : Type} {M : IOMachine σ ι ο} {N : IOMachine σ' ι' ο'}

/-- **Simulation.** One machine reads what the other reads in another form, and emits in another
form what it emits, if each step does and keeps the two states related. -/
theorem exec_simulation {R : σ → σ' → Prop} (f : ι → ι') (g : ο → ο')
    (hstep : ∀ s s' i, R s s' → R (M.step s i).1 (N.step s' (f i)).1 ∧
      (N.step s' (f i)).2 = (M.step s i).2.map g)
    {s : σ} {s' : σ'} (h : R s s') (is : List ι) :
    R (M.exec s is).1 (N.exec s' (is.map f)).1 ∧
      (N.exec s' (is.map f)).2 = (M.exec s is).2.map g := by
  induction is generalizing s s' with
  | nil => exact ⟨h, rfl⟩
  | cons i is ih =>
      obtain ⟨hnext, hsame⟩ := hstep s s' i h
      obtain ⟨hend, hrest⟩ := ih hnext
      rw [List.map_cons, exec_cons, exec_cons, List.map_append, hsame, hrest]
      exact ⟨hend, rfl⟩

/-- **Refinement.** One machine does in any number of steps, or in none, what the other does in a
step that meets `C`, and emits the same as far as it is seen; then it does so in a run. -/
theorem exec_refines {R : σ → σ' → Prop} {C : σ → ι → Prop} (seen : ο' → Option ο)
    (hstep : ∀ s s' i, C s i → R s s' → ∃ is', R (M.step s i).1 (N.exec s' is').1 ∧
      (N.exec s' is').2.filterMap seen = (M.step s i).2)
    {s : σ} {s' : σ'} (h : R s s') (is : List ι) (hC : M.Along C s is) :
    ∃ is', R (M.exec s is).1 (N.exec s' is').1 ∧
      (N.exec s' is').2.filterMap seen = (M.exec s is).2 := by
  induction is generalizing s s' with
  | nil => exact ⟨[], h, rfl⟩
  | cons i is ih =>
      obtain ⟨first, hnext, hsame⟩ := hstep s s' i hC.1 h
      obtain ⟨rest, hend, hrest⟩ := ih hnext hC.2
      refine ⟨first ++ rest, ?_⟩
      rw [exec_append, exec_cons, List.filterMap_append, hsame, hrest]
      exact ⟨hend, rfl⟩

end IOMachine

namespace IOMachine

variable {σ ι ο : Type} {M : IOMachine σ ι ο}

/-- What a step keeps exactly if it meets `C`, and no step brings back, lasts as long as the steps
of the run meet `C`. -/
theorem exec_iff_along {I P : σ → Prop} {C : σ → ι → Prop}
    (hI : ∀ s i, I s → I (M.step s i).1) (hkeeps : ∀ s i, I s → P s → (P (M.step s i).1 ↔ C s i))
    (hlost : ∀ s i, ¬ P s → ¬ P (M.step s i).1) {s : σ} (hinv : I s) (hs : P s) (is : List ι) :
    P (M.exec s is).1 ↔ M.Along C s is := by
  have hgone : ∀ (is : List ι) (s : σ), ¬ P s → ¬ P (M.exec s is).1 := by
    intro is
    induction is with
    | nil => exact fun s hno => hno
    | cons i is ih => exact fun s hno => ih _ (hlost s i hno)
  induction is generalizing s with
  | nil => exact iff_of_true hs trivial
  | cons i is ih =>
      rw [exec_cons]
      dsimp only [Along]
      by_cases hC : C s i
      · exact (ih (hI s i hinv) ((hkeeps s i hinv hs).2 hC)).trans (and_iff_right hC).symm
      · refine iff_of_false (hgone is _ fun hnext => hC ((hkeeps s i hinv hs).1 hnext)) ?_
        exact fun hno => hC hno.1

end IOMachine

namespace IOMachine

variable {σ ι ο : Type} (M : IOMachine σ ι ο)

/-! ## Counting steps -/

/-- How many steps of the run from `s` meet `C`. -/
def tally (C : σ → ι → Bool) : σ → List ι → Nat
  | _, [] => 0
  | s, i :: is => (C s i).toNat + tally C (M.step s i).1 is

variable {M}

/-- **A potential.** Each step that meets `C` uses up a unit of `work`, and only a step that
meets `D` brings any, `n` units at most. So there are no more than `n` steps of the first kind
for each of the second, and for what there was at first. -/
theorem work_add_tally_le {P : σ → Prop} (hP : ∀ s i, P s → P (M.step s i).1) {work : σ → Nat}
    {C D : σ → ι → Bool} {n : Nat}
    (hwork : ∀ s i, P s → work (M.step s i).1 + (C s i).toNat ≤ work s + n * (D s i).toNat)
    {s : σ} (hs : P s) (is : List ι) :
    work (M.exec s is).1 + M.tally C s is ≤ work s + n * M.tally D s is := by
  induction is generalizing s with
  | nil => simp [tally]
  | cons i is ih =>
      have hfirst := hwork s i hs
      have hrest := ih (hP s i hs)
      rw [exec_cons, tally, tally, Nat.mul_add]
      dsimp only
      omega

end IOMachine

/-! ## Logs whose entries follow from what precedes them -/

/-- What no entry of the log changes. -/
theorem foldl_stays {β ο : Type} {f : β → ο → β} {b : β} {log : List ο}
    (h : ∀ e ∈ log, f b e = b) : log.foldl f b = b := by
  induction log with
  | nil => rfl
  | cons e log ih =>
      rw [List.foldl_cons, h e List.mem_cons_self]
      exact ih fun e' he' => h e' (List.mem_cons_of_mem e he')

/-- Every entry of the log is in relation `P` to the entries before it. -/
def EachAfter {ο : Type} (P : List ο → ο → Prop) (log : List ο) : Prop :=
  ∀ pre e post, log = pre ++ e :: post → P pre e

namespace EachAfter

variable {ο : Type} {P : List ο → ο → Prop}

theorem nil : EachAfter P [] := by
  intro pre e post h
  simp at h

theorem cons {a : ο} {log : List ο} (ha : P [] a)
    (hlog : EachAfter (fun pre e => P (a :: pre) e) log) : EachAfter P (a :: log) := by
  intro pre e post h
  cases pre with
  | nil =>
      obtain ⟨rfl, rfl⟩ := List.cons.inj h
      exact ha
  | cons a' pre =>
      obtain ⟨rfl, rfl⟩ := List.cons.inj h
      exact hlog pre e post rfl

theorem append {log log' : List ο} (h : EachAfter P log)
    (h' : EachAfter (fun pre e => P (log ++ pre) e) log') : EachAfter P (log ++ log') := by
  intro pre e post heq
  rcases List.append_eq_append_iff.1 heq with ⟨mid, rfl, hmid⟩ | ⟨mid, rfl, hmid⟩
  · exact h' mid e post hmid
  · cases mid with
    | nil =>
        have hfirst := h' [] e post hmid.symm
        simpa using hfirst
    | cons e' mid =>
        obtain ⟨rfl, rfl⟩ := List.cons.inj hmid
        exact h pre e mid rfl

end EachAfter
