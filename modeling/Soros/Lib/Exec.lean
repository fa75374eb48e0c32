import Mathlib.Order.Defs.Unbundled
import Mathlib.Tactic.Basic

set_option autoImplicit false

/-! # Computations with state, errors, panics and process exit

`Exec σ ε α` is a computation over a mutable state `σ`. It ends with a value, with an error
that the caller may handle, with a panic or by leaving the process. The state survives all
four: an early return on an error keeps every change made before it, which is how a method on
a mutable receiver behaves.

Two kinds of rules are given. The equations `pure_run`, `bind_run`, … run a computation on a
state. `Keeps R c` says that `c` relates the state before to the state after by `R`, however
it ends; it is closed under composition whenever `R` is reflexive and transitive, so a frame
condition or a monotonicity fact about a long method follows from its parts without running
it. -/

/-- How a computation ends. -/
inductive Outcome (ε α : Type) where
  | ok (a : α)
  | err (e : ε)
  | panic (msg : String)
  | exit (code : Nat)
  deriving DecidableEq, Repr

namespace Outcome

variable {ε ε' α β : Type}

def map (f : α → β) : Outcome ε α → Outcome ε β
  | .ok a => .ok (f a)
  | .err e => .err e
  | .panic m => .panic m
  | .exit n => .exit n

def mapErr (f : ε → ε') : Outcome ε α → Outcome ε' α
  | .ok a => .ok a
  | .err e => .err (f e)
  | .panic m => .panic m
  | .exit n => .exit n

/-- A result that the caller may handle, as the end of a computation. -/
def ofExcept : Except ε α → Outcome ε α
  | .ok a => .ok a
  | .error e => .err e

/-- The computation hands a value or an error to its caller. -/
def Returns (o : Outcome ε α) : Prop := ∃ r, o = ofExcept r

theorem returns_ok (a : α) : (ok a : Outcome ε α).Returns := ⟨.ok a, rfl⟩

theorem returns_err (e : ε) : (err e : Outcome ε α).Returns := ⟨.error e, rfl⟩

theorem not_returns_panic (m : String) : ¬ (panic m : Outcome ε α).Returns := by
  rintro ⟨r, hr⟩
  cases r <;> cases hr

theorem not_returns_exit (n : Nat) : ¬ (exit n : Outcome ε α).Returns := by
  rintro ⟨r, hr⟩
  cases r <;> cases hr

@[simp] theorem map_ok (f : α → β) (a : α) : (ok a : Outcome ε α).map f = ok (f a) := rfl
@[simp] theorem map_err (f : α → β) (e : ε) : (err e : Outcome ε α).map f = err e := rfl
@[simp] theorem mapErr_ok (f : ε → ε') (a : α) : (ok a).mapErr f = ok a := rfl
@[simp] theorem mapErr_err (f : ε → ε') (e : ε) :
    (err e : Outcome ε α).mapErr f = err (f e) := rfl

end Outcome

/-- A computation over a state `σ` with errors `ε` and result `α`. -/
structure Exec (σ ε α : Type) where
  run : σ → Outcome ε α × σ

namespace Exec

variable {σ τ ε ε' α β : Type}

protected def pure (a : α) : Exec σ ε α := ⟨fun s => (.ok a, s)⟩

protected def bind (c : Exec σ ε α) (f : α → Exec σ ε β) : Exec σ ε β := ⟨fun s =>
  match c.run s with
  | (.ok a, s') => (f a).run s'
  | (.err e, s') => (.err e, s')
  | (.panic m, s') => (.panic m, s')
  | (.exit n, s') => (.exit n, s')⟩

instance : Monad (Exec σ ε) where
  pure := Exec.pure
  bind := Exec.bind

def throw (e : ε) : Exec σ ε α := ⟨fun s => (.err e, s)⟩

/-- Unwind with a message: a failed `unwrap`, a `panic!`, an `unreachable!`. -/
def panic (msg : String) : Exec σ ε α := ⟨fun s => (.panic msg, s)⟩

/-- Leave the process. -/
def exit (code : Nat) : Exec σ ε α := ⟨fun s => (.exit code, s)⟩

def get : Exec σ ε σ := ⟨fun s => (.ok s, s)⟩

def modify (f : σ → σ) : Exec σ ε Unit := ⟨fun s => (.ok (), f s)⟩

/-- Hand the error to the caller as a value instead of returning early. -/
def attempt (c : Exec σ ε α) : Exec σ ε' (Except ε α) := ⟨fun s =>
  match c.run s with
  | (.ok a, s') => (.ok (.ok a), s')
  | (.err e, s') => (.ok (.error e), s')
  | (.panic m, s') => (.panic m, s')
  | (.exit n, s') => (.exit n, s')⟩

/-- Convert the error type. -/
def mapErr (f : ε → ε') (c : Exec σ ε α) : Exec σ ε' α := ⟨fun s =>
  ((c.run s).1.mapErr f, (c.run s).2)⟩

/-- Run a computation on a component of the state. -/
def zoom (view : σ → τ) (update : σ → τ → σ) (c : Exec τ ε α) : Exec σ ε α := ⟨fun s =>
  ((c.run (view s)).1, update s (c.run (view s)).2)⟩

/-! ## Running a computation -/

@[simp] theorem pure_run (a : α) (s : σ) : (Pure.pure a : Exec σ ε α).run s = (.ok a, s) := rfl
@[simp] theorem throw_run (e : ε) (s : σ) : (throw e : Exec σ ε α).run s = (.err e, s) := rfl
@[simp] theorem panic_run (m : String) (s : σ) :
    (panic m : Exec σ ε α).run s = (.panic m, s) := rfl
@[simp] theorem exit_run (n : Nat) (s : σ) : (exit n : Exec σ ε α).run s = (.exit n, s) := rfl
@[simp] theorem get_run (s : σ) : (get : Exec σ ε σ).run s = (.ok s, s) := rfl
@[simp] theorem modify_run (f : σ → σ) (s : σ) :
    (modify f : Exec σ ε Unit).run s = (.ok (), f s) := rfl
@[simp] theorem mapErr_run (f : ε → ε') (c : Exec σ ε α) (s : σ) :
    (c.mapErr f).run s = ((c.run s).1.mapErr f, (c.run s).2) := rfl
@[simp] theorem zoom_run (view : σ → τ) (update : σ → τ → σ) (c : Exec τ ε α) (s : σ) :
    (c.zoom view update).run s = ((c.run (view s)).1, update s (c.run (view s)).2) := rfl

theorem bind_run (c : Exec σ ε α) (f : α → Exec σ ε β) (s : σ) :
    (c >>= f).run s = match c.run s with
      | (.ok a, s') => (f a).run s'
      | (.err e, s') => (.err e, s')
      | (.panic m, s') => (.panic m, s')
      | (.exit n, s') => (.exit n, s') := rfl

/-- Computations that run alike are equal. -/
theorem eq_of_run {c d : Exec σ ε α} (h : ∀ s, c.run s = d.run s) : c = d := by
  cases c
  cases d
  exact congrArg Exec.mk (funext h)

protected theorem bind_pure (c : Exec σ ε α) : c >>= Pure.pure = c := by
  refine eq_of_run fun s => ?_
  rw [bind_run]
  rcases c.run s with ⟨o, s'⟩
  cases o <;> rfl

protected theorem bind_assoc {γ : Type} (c : Exec σ ε α) (f : α → Exec σ ε β)
    (g : β → Exec σ ε γ) : c >>= f >>= g = c >>= fun a => f a >>= g := by
  refine eq_of_run fun s => ?_
  simp only [bind_run]
  rcases c.run s with ⟨o, s'⟩
  cases o <;> rfl

instance : LawfulMonad (Exec σ ε) :=
  .mk' _ Exec.bind_pure (fun _ _ => rfl) Exec.bind_assoc

theorem bind_ok {c : Exec σ ε α} {f : α → Exec σ ε β} {s s' : σ} {a : α}
    (h : c.run s = (.ok a, s')) : (c >>= f).run s = (f a).run s' := by
  rw [bind_run, h]

theorem bind_err {c : Exec σ ε α} {f : α → Exec σ ε β} {s s' : σ} {e : ε}
    (h : c.run s = (.err e, s')) : (c >>= f).run s = (.err e, s') := by
  rw [bind_run, h]

theorem attempt_ok {c : Exec σ ε α} {s s' : σ} {a : α} (h : c.run s = (.ok a, s')) :
    (attempt c : Exec σ ε' _).run s = (.ok (.ok a), s') := by
  unfold attempt; dsimp only; rw [h]

theorem attempt_err {c : Exec σ ε α} {s s' : σ} {e : ε} (h : c.run s = (.err e, s')) :
    (attempt c : Exec σ ε' _).run s = (.ok (.error e), s') := by
  unfold attempt; dsimp only; rw [h]

@[simp] theorem attempt_state (c : Exec σ ε α) (s : σ) :
    ((attempt c : Exec σ ε' _).run s).2 = (c.run s).2 := by
  unfold attempt
  dsimp only
  rcases c.run s with ⟨o, s'⟩
  cases o <;> rfl

/-! ## Relations between the state before and after -/

/-- However `c` ends, it relates the state before to the state after by `R`. -/
def Keeps (R : σ → σ → Prop) (c : Exec σ ε α) : Prop := ∀ s, R s (c.run s).2

namespace Keeps

variable {R : σ → σ → Prop}

theorem pure [Std.Refl R] (a : α) : Keeps R (Pure.pure a : Exec σ ε α) := fun s => refl_of R s

theorem throw [Std.Refl R] (e : ε) : Keeps R (Exec.throw e : Exec σ ε α) := fun s => refl_of R s

theorem panic [Std.Refl R] (m : String) : Keeps R (Exec.panic m : Exec σ ε α) :=
  fun s => refl_of R s

theorem exit [Std.Refl R] (n : Nat) : Keeps R (Exec.exit n : Exec σ ε α) := fun s => refl_of R s

theorem get [Std.Refl R] : Keeps R (Exec.get : Exec σ ε σ) := fun s => refl_of R s

theorem modify {f : σ → σ} (h : ∀ s, R s (f s)) : Keeps R (Exec.modify f : Exec σ ε Unit) := h

/-- A sequence keeps `T` if the first part keeps an `R` within `T`, and the second part, when
it is reached, makes a `T` of it. -/
theorem seq {S T : σ → σ → Prop} {c : Exec σ ε α} {f : α → Exec σ ε β} (hc : Keeps R c)
    (hf : ∀ a, Keeps S (f a)) (hstop : ∀ s s', R s s' → T s s')
    (hgo : ∀ s s' s'', R s s' → S s' s'' → T s s'') : Keeps T (c >>= f) := by
  intro s
  have h := hc s
  rw [bind_run]
  rcases hcs : c.run s with ⟨o, s'⟩
  rw [hcs] at h
  cases o with
  | ok a => exact hgo _ _ _ h (hf a s')
  | err e => exact hstop _ _ h
  | panic m => exact hstop _ _ h
  | exit n => exact hstop _ _ h

/-- **Composition.** A transitive relation kept by both parts is kept by their sequence,
whether or not the second part is reached. -/
theorem bind [IsTrans σ R] {c : Exec σ ε α} {f : α → Exec σ ε β} (hc : Keeps R c)
    (hf : ∀ a, Keeps R (f a)) : Keeps R (c >>= f) :=
  hc.seq hf (fun _ _ h => h) (fun _ _ _ h h' => trans_of R h h')

/-- After the first part of a sequence, the rest makes an `R` at most. -/
theorem after [Std.Refl R] {f : α → Exec σ ε β} (hf : ∀ a, Keeps R (f a)) (c : Exec σ ε α)
    (s : σ) : R (c.run s).2 ((c >>= f).run s).2 := by
  rw [bind_run]
  rcases hcs : c.run s with ⟨o, s'⟩
  cases o with
  | ok a => exact hf a s'
  | err e => exact refl_of R s'
  | panic m => exact refl_of R s'
  | exit n => exact refl_of R s'

theorem attempt {c : Exec σ ε α} (hc : Keeps R c) :
    Keeps R (Exec.attempt c : Exec σ ε' (Except ε α)) := by
  intro s
  rw [attempt_state]
  exact hc s

theorem mapErr {f : ε → ε'} {c : Exec σ ε α} (hc : Keeps R c) : Keeps R (c.mapErr f) := hc

theorem ite {p : Prop} [Decidable p] {c d : Exec σ ε α} (hc : Keeps R c) (hd : Keeps R d) :
    Keeps R (if p then c else d) := by
  split
  · exact hc
  · exact hd

end Keeps

/-! ## The same computation in another form -/

/-- `c'` does to the image of a state under `f` what `c` does to the state. -/
def Maps (f : σ → τ) (c : Exec σ ε α) (c' : Exec τ ε α) : Prop :=
  ∀ s, c'.run (f s) = ((c.run s).1, f (c.run s).2)

namespace Maps

variable {f : σ → τ}

theorem pure (a : α) : Maps f (Pure.pure a : Exec σ ε α) (Pure.pure a) := fun _ => rfl

theorem throw (e : ε) : Maps f (Exec.throw e : Exec σ ε α) (Exec.throw e) := fun _ => rfl

theorem panic (m : String) : Maps f (Exec.panic m : Exec σ ε α) (Exec.panic m) := fun _ => rfl

theorem exit (n : Nat) : Maps f (Exec.exit n : Exec σ ε α) (Exec.exit n) := fun _ => rfl

theorem modify {g : σ → σ} {g' : τ → τ} (h : ∀ s, g' (f s) = f (g s)) :
    Maps f (Exec.modify g : Exec σ ε Unit) (Exec.modify g') := by
  intro s
  rw [modify_run, modify_run, h s]

theorem bind {c : Exec σ ε α} {c' : Exec τ ε α} {k : α → Exec σ ε β} {k' : α → Exec τ ε β}
    (hc : Maps f c c') (hk : ∀ a, Maps f (k a) (k' a)) : Maps f (c >>= k) (c' >>= k') := by
  intro s
  rw [bind_run, bind_run, hc s]
  rcases c.run s with ⟨o, s'⟩
  cases o with
  | ok a => exact hk a s'
  | err e => rfl
  | panic m => rfl
  | exit n => rfl

/-- What is read of the state has to be read of its image too. -/
theorem getBind {k : σ → Exec σ ε α} {k' : τ → Exec τ ε α}
    (hk : ∀ s, Maps f (k s) (k' (f s))) :
    Maps f ((get : Exec σ ε σ) >>= k) ((get : Exec τ ε τ) >>= k') := by
  intro s
  rw [bind_ok (get_run _), bind_ok (get_run _)]
  exact hk s s

theorem attempt {c : Exec σ ε α} {c' : Exec τ ε α} (hc : Maps f c c') :
    Maps f (Exec.attempt c : Exec σ ε' _) (Exec.attempt c') := by
  intro s
  unfold Exec.attempt
  dsimp only
  rw [hc s]
  rcases c.run s with ⟨o, s'⟩
  cases o <;> rfl

theorem mapErr {c : Exec σ ε α} {c' : Exec τ ε α} (hc : Maps f c c') (g : ε → ε') :
    Maps f (c.mapErr g) (c'.mapErr g) := by
  intro s
  rw [mapErr_run, mapErr_run, hc s]

/-- A component that is the same in both states. -/
theorem zoom {ρ : Type} {view : σ → ρ} {update : σ → ρ → σ} {view' : τ → ρ} {update' : τ → ρ → τ}
    (hview : ∀ s, view' (f s) = view s) (hupdate : ∀ s r, update' (f s) r = f (update s r))
    (c : Exec ρ ε α) : Maps f (c.zoom view update) (c.zoom view' update') := by
  intro s
  rw [zoom_run, zoom_run, hview s, hupdate s]

end Maps

end Exec
