set_option autoImplicit false

/-! # Programs suspended on operations

A program over operations `Op` has ended, with a value or an error, or it waits for the answer
to an operation and goes on by what the answer is. It does nothing by itself: whoever runs it
answers the operations, one at a time, so several programs and their surroundings can be
interleaved at will. -/

/-- A program with errors `ε` and result `α`, whose operations `op` are answered by `Res op`. -/
inductive Prog (Op : Type) (Res : Op → Type) (ε α : Type) where
  | done (r : Except ε α)
  | call (op : Op) (cont : Res op → Prog Op Res ε α)

namespace Prog

variable {Op : Type} {Res : Op → Type} {ε ε' α β : Type}

protected def pure (a : α) : Prog Op Res ε α := .done (.ok a)

protected def bind (c : Prog Op Res ε α) (f : α → Prog Op Res ε β) : Prog Op Res ε β :=
  match c with
  | .done (.ok a) => f a
  | .done (.error e) => .done (.error e)
  | .call op cont => .call op fun r => (cont r).bind f

instance : Monad (Prog Op Res ε) where
  pure := Prog.pure
  bind := Prog.bind

def throw (e : ε) : Prog Op Res ε α := .done (.error e)

/-- Perform an operation. -/
def perform (op : Op) : Prog Op Res ε (Res op) := .call op fun r => .done (.ok r)

/-- Hand the error to the caller as a value instead of returning early. -/
def attempt (c : Prog Op Res ε α) : Prog Op Res ε' (Except ε α) :=
  match c with
  | .done r => .done (.ok r)
  | .call op cont => .call op fun r => (cont r).attempt

/-- Run a program to its end, every operation being answered in the same way. -/
def runWith (answer : (op : Op) → Res op) : Prog Op Res ε α → Except ε α
  | .done r => r
  | .call op cont => runWith answer (cont (answer op))

protected theorem bind_pure (c : Prog Op Res ε α) : c >>= Pure.pure = c := by
  induction c with
  | done r => cases r <;> rfl
  | call op cont ih => exact congrArg (Prog.call op) (funext ih)

protected theorem bind_assoc {γ : Type} (c : Prog Op Res ε α) (f : α → Prog Op Res ε β)
    (g : β → Prog Op Res ε γ) : c >>= f >>= g = c >>= fun a => f a >>= g := by
  induction c with
  | done r => cases r <;> rfl
  | call op cont ih => exact congrArg (Prog.call op) (funext ih)

instance : LawfulMonad (Prog Op Res ε) :=
  .mk' _ Prog.bind_pure (fun _ _ => rfl) Prog.bind_assoc

/-! ## What a program may do

A monitor keeps account of the operations of a program. `Obeys` is a program's weakest
precondition with respect to it, for answers chosen by an adversary; the rules below follow the
ways in which programs are put together. -/

/-- Which operations a state of the account allows, and the state after the answer to one. -/
structure Monitor (Op : Type) (Res : Op → Type) (σ : Type) where
  allows : σ → Op → Prop
  next : σ → (op : Op) → Res op → σ

/-- Whatever it is answered, the program performs what the monitor allows and ends as `post`
says. -/
def Obeys {σ : Type} (g : Monitor Op Res σ) (post : σ → Except ε α → Prop) :
    Prog Op Res ε α → σ → Prop
  | .done r, s => post s r
  | .call op cont, s => g.allows s op ∧ ∀ answer, (cont answer).Obeys g post (g.next s op answer)

namespace Obeys

variable {σ : Type} {g : Monitor Op Res σ}

/-- **Another monitor.** What obeys one monitor obeys another that allows as much. -/
theorem simulate {σ' : Type} {g' : Monitor Op Res σ'} (R : σ → σ' → Prop)
    (hallows : ∀ s s' op, R s s' → g.allows s op → g'.allows s' op)
    (hnext : ∀ s s' op answer, R s s' → g.allows s op → R (g.next s op answer) (g'.next s' op answer))
    {post : σ → Except ε α → Prop} {post' : σ' → Except ε α → Prop}
    (hpost : ∀ s s' r, R s s' → post s r → post' s' r) {c : Prog Op Res ε α} {s : σ} {s' : σ'}
    (hR : R s s') (hc : c.Obeys g post s) : c.Obeys g' post' s' := by
  induction c generalizing s s' with
  | done r => exact hpost s s' r hR hc
  | call op cont ih =>
      exact ⟨hallows s s' op hR hc.1, fun answer => ih answer (hnext s s' op answer hR hc.1)
        (hc.2 answer)⟩

theorem mono {post post' : σ → Except ε α → Prop} (h : ∀ s r, post s r → post' s r)
    {c : Prog Op Res ε α} {s : σ} (hc : c.Obeys g post s) : c.Obeys g post' s := by
  induction c generalizing s with
  | done r => exact h s r hc
  | call op cont ih => exact ⟨hc.1, fun answer => ih answer (hc.2 answer)⟩

/-- **Sequencing.** The second part starts where the first has ended. -/
theorem bind {post : σ → Except ε β → Prop} {c : Prog Op Res ε α} {f : α → Prog Op Res ε β} {s : σ}
    (hc : c.Obeys g (fun s r => match r with
      | .ok a => (f a).Obeys g post s
      | .error e => post s (.error e)) s) : (c >>= f).Obeys g post s := by
  induction c generalizing s with
  | done r =>
      cases r with
      | ok a => exact hc
      | error e => exact hc
  | call op cont ih => exact ⟨hc.1, fun answer => ih answer (hc.2 answer)⟩

/-- Sequencing when it does not matter how the first part ends. -/
theorem seq {post : σ → Except ε β → Prop} {c : Prog Op Res ε α} {f : α → Prog Op Res ε β} {s : σ}
    (hc : c.Obeys g (fun _ _ => True) s) (hf : ∀ a s, (f a).Obeys g post s)
    (he : ∀ e s, post s (.error e)) : (c >>= f).Obeys g post s := by
  refine .bind (.mono (fun s r _ => ?_) hc)
  cases r with
  | ok a => exact hf a s
  | error e => exact he e s

theorem attempt {post : σ → Except ε' (Except ε α) → Prop} {c : Prog Op Res ε α} {s : σ}
    (hc : c.Obeys g (fun s r => post s (.ok r)) s) :
    (Prog.attempt c : Prog Op Res ε' (Except ε α)).Obeys g post s := by
  induction c generalizing s with
  | done r => exact hc
  | call op cont ih => exact ⟨hc.1, fun answer => ih answer (hc.2 answer)⟩

end Obeys

/-! ## The operations of a program -/

/-- Whatever it is answered, the program performs only operations in `A`. -/
def Uses (A : Op → Prop) : Prog Op Res ε α → Prop
  | .done _ => True
  | .call op cont => A op ∧ ∀ answer, (cont answer).Uses A

namespace Uses

variable {A : Op → Prop}

theorem perform {op : Op} (h : A op) : (Prog.perform op : Prog Op Res ε (Res op)).Uses A :=
  ⟨h, fun _ => trivial⟩

theorem bind {c : Prog Op Res ε α} {f : α → Prog Op Res ε β} (hc : c.Uses A)
    (hf : ∀ a, (f a).Uses A) : (c >>= f).Uses A := by
  induction c with
  | done r =>
      cases r with
      | ok a => exact hf a
      | error e => trivial
  | call op cont ih => exact ⟨hc.1, fun answer => ih answer (hc.2 answer)⟩

theorem attempt {c : Prog Op Res ε α} (hc : c.Uses A) :
    (Prog.attempt c : Prog Op Res ε' (Except ε α)).Uses A := by
  induction c with
  | done r => trivial
  | call op cont ih => exact ⟨hc.1, fun answer => ih answer (hc.2 answer)⟩

end Uses

end Prog
