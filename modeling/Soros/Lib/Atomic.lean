import Mathlib.Logic.Function.Basic
import Soros.Lib.Machine

set_option autoImplicit false

/-! # Objects whose operations take effect at once

Processes call the operations of an object. A call is invoked, takes effect in one step, and
returns; between these three events other processes go on. What has taken effect decides what
may be returned, but the state in which it is returned has a say too: an operation that has to
wait returns when the state allows it.

A machine is linearizable to an object if the history of every run is one that the object
accepts: each call then takes effect at one moment between its invocation and its return, and
the calls are served one at a time in the order of these moments (`Accepts.object`). -/

namespace Atomic

variable {P Op S V R : Type}

/-- An object with states `S`. Serving an operation leaves a verdict; `returns` says which
results a call with this verdict may return with. -/
structure Object (P Op S V R : Type) where
  start : S
  serve : P → Op → S → S × V
  returns : P → Op → V → S → R → Prop

inductive Event (P Op R : Type) where
  | invoked (p : P) (op : Op)
  | served (p : P) (op : Op)
  | returned (p : P) (op : Op) (r : R)

/-- Where the call of a process stands. -/
inductive Stage (Op V : Type) where
  | invoked (op : Op)
  | served (op : Op) (v : V)

structure State (P Op S V : Type) where
  object : S
  calls : P → Option (Stage Op V)

variable [DecidableEq P]

/-- The call of `p` gets to another stage. -/
def State.setCall (a : State P Op S V) (p : P) (stage : Option (Stage Op V)) : State P Op S V :=
  { a with calls := Function.update a.calls p stage }

@[simp] theorem State.setCall_object (a : State P Op S V) (p : P) (stage : Option (Stage Op V)) :
    (a.setCall p stage).object = a.object := rfl

@[simp] theorem State.setCall_calls (a : State P Op S V) (p : P) (stage : Option (Stage Op V)) :
    (a.setCall p stage).calls = Function.update a.calls p stage := rfl

variable (O : Object P Op S V R)

def Object.init : State P Op S V := ⟨O.start, fun _ => none⟩

/-- An event that the object allows. -/
inductive Step : State P Op S V → Event P Op R → State P Op S V → Prop where
  | invokes (a : State P Op S V) (p : P) (op : Op) (hidle : a.calls p = none) :
      Step a (.invoked p op) (a.setCall p (some (.invoked op)))
  | serves (a : State P Op S V) (p : P) (op : Op) (hcall : a.calls p = some (.invoked op)) :
      Step a (.served p op)
        (State.setCall { a with object := (O.serve p op a.object).1 } p
          (some (.served op (O.serve p op a.object).2)))
  | returns (a : State P Op S V) (p : P) (op : Op) (v : V) (r : R)
      (hcall : a.calls p = some (.served op v)) (hreturns : O.returns p op v a.object r) :
      Step a (.returned p op r) (a.setCall p none)

/-- **A history that the object accepts.** -/
inductive Accepts : State P Op S V → List (Event P Op R) → State P Op S V → Prop where
  | nil (a : State P Op S V) : Accepts a [] a
  | cons {a b c : State P Op S V} {e : Event P Op R} {log : List (Event P Op R)}
      (hfirst : Step O a e b) (hrest : Accepts b log c) : Accepts a (e :: log) c

variable {O}

theorem Accepts.single {a b : State P Op S V} {e : Event P Op R} (h : Step O a e b) :
    Accepts O a [e] b := .cons h (.nil b)

theorem Accepts.append {a b c : State P Op S V} {log log' : List (Event P Op R)}
    (h : Accepts O a log b) (h' : Accepts O b log' c) : Accepts O a (log ++ log') c := by
  induction h with
  | nil => exact h'
  | cons hfirst hrest ih => exact .cons hfirst (ih h')

/-- The operations that have taken effect, in order. -/
def effects (log : List (Event P Op R)) : List (P × Op) :=
  log.filterMap fun
    | .served p op => some (p, op)
    | _ => none

/-- The state after operations served one at a time. -/
def Object.serveAll (O : Object P Op S V R) (ops : List (P × Op)) (s : S) : S :=
  ops.foldl (fun s e => (O.serve e.1 e.2 s).1) s

theorem Accepts.object {a b : State P Op S V} {log : List (Event P Op R)} (h : Accepts O a log b) :
    b.object = O.serveAll (effects log) a.object := by
  induction h with
  | nil => rfl
  | cons hfirst hrest ih =>
      rw [ih]
      cases hfirst <;> rfl

/-- The processes do not see when a call takes effect. -/
def visible : Event P Op R → Bool
  | .served _ _ => false
  | .invoked _ _ | .returned _ _ _ => true

/-- **What the processes see is linearizable**: there are moments at which the calls may have taken
effect. -/
def Object.Explains (O : Object P Op S V R) (log : List (Event P Op R)) : Prop :=
  ∃ history a, Accepts O O.init history a ∧ history.filter visible = log

/-! ## Machines -/

variable {σ ι ο : Type} {M : IOMachine σ ι ο}

/-- **A machine is linearizable** if the object allows what each step shows of the calls. -/
theorem run_accepted {Inv : σ → State P Op S V → Prop} (seen : ο → Option (Event P Op R))
    (hstart : Inv M.start O.init)
    (hstep : ∀ s a i, Inv s a → ∃ b, Accepts O a ((M.step s i).2.filterMap seen) b ∧
      Inv (M.step s i).1 b) (is : List ι) :
    ∃ a, Accepts O O.init ((M.run is).2.filterMap seen) a ∧ Inv (M.run is).1 a := by
  refine IOMachine.run_induction
    (fun s log => ∃ a, Accepts O O.init (log.filterMap seen) a ∧ Inv s a)
    ⟨O.init, .nil _, hstart⟩ (fun s log i hlog => ?_) is
  obtain ⟨a, haccepts, ha⟩ := hlog
  obtain ⟨b, hnext, hb⟩ := hstep s a i ha
  rw [List.filterMap_append]
  exact ⟨b, haccepts.append hnext, hb⟩

end Atomic
