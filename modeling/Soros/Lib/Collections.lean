import Mathlib.Data.Finset.Basic
import Mathlib.Data.Finset.Max
import Mathlib.Logic.Function.Basic

set_option autoImplicit false

/-! # Channels and the iteration order of sets

`Channel` is an unbounded queue with one receiving end: sending fails exactly when the
receiver is gone. `SetIter` stands for the order in which a hash set is walked, which the
language leaves open; only the element it starts with is observable here, and all that is
known of it is that it is an element. -/

/-- An unbounded channel: the messages sent and not yet received, oldest first. -/
structure Channel (α : Type) where
  connected : Bool
  buffer : List α
  deriving DecidableEq, Repr

namespace Channel

variable {α : Type}

/-- A fresh channel, its receiver alive. -/
def new : Channel α := ⟨true, []⟩

/-- Send a message; `none` when the receiver has been dropped. -/
def send (c : Channel α) (a : α) : Option (Channel α) :=
  if c.connected then some { c with buffer := c.buffer ++ [a] } else none

/-- Take everything out without blocking. -/
def drain (c : Channel α) : List α × Channel α := (c.buffer, { c with buffer := [] })

@[simp] theorem drain_connected (c : Channel α) : c.drain.2.connected = c.connected := rfl

theorem send_connected {c : Channel α} (h : c.connected = true) (a : α) :
    c.send a = some { c with buffer := c.buffer ++ [a] } := by
  simp [send, h]

end Channel

/-- The order in which a hash set is walked, as far as its first element goes. -/
structure SetIter (α : Type) where
  first : Finset α → α
  first_mem : ∀ s : Finset α, s.Nonempty → first s ∈ s

namespace SetIter

/-- Walk the set in increasing order. -/
def ascending : SetIter Nat where
  first s := if h : s.Nonempty then s.min' h else 0
  first_mem s hs := by rw [dif_pos hs]; exact s.min'_mem hs

/-- Walk the set in increasing order, but begin with `a` if it is in the set. -/
def beginning (a : Nat) : SetIter Nat where
  first s := if a ∈ s then a else ascending.first s
  first_mem s hs := by
    split
    · assumption
    · exact ascending.first_mem s hs

end SetIter
