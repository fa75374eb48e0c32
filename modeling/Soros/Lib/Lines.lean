import Mathlib.Data.List.Basic

set_option autoImplicit false

/-! # Streams of lines

A line is a body without the separator, and the separator. A stream of lines arrives in pieces
that have nothing to do with its lines; these lemmas say what a prefix of the stream knows of
its first line. -/

namespace Lines

variable {α : Type} {sep : α}

/-- What has arrived contains a separator: the whole first line is there. -/
theorem complete {body rest arrived coming : List α} (hbody : sep ∉ body)
    (h : arrived ++ coming = body ++ sep :: rest) (hsep : sep ∈ arrived) :
    ∃ tail, arrived = body ++ sep :: tail ∧ tail ++ coming = rest := by
  rcases List.append_eq_append_iff.1 h with ⟨missing, hshort, -⟩ | ⟨tail, harrived, htail⟩
  · exact absurd (hshort ▸ List.mem_append_left _ hsep) hbody
  · cases tail with
    | nil =>
        rw [List.append_nil] at harrived
        exact absurd (harrived ▸ hsep) hbody
    | cons a tail =>
        obtain ⟨rfl, hrest⟩ := List.cons.inj htail
        exact ⟨tail, harrived, hrest.symm⟩

/-- As long as no separator has arrived, no more than the body is there. -/
theorem length_le {body rest arrived coming : List α}
    (h : arrived ++ coming = body ++ sep :: rest) (hsep : sep ∉ arrived) :
    arrived.length ≤ body.length := by
  rcases List.append_eq_append_iff.1 h with ⟨missing, hshort, -⟩ | ⟨tail, harrived, htail⟩
  · have hlength := congrArg List.length hshort
    rw [List.length_append] at hlength
    omega
  · cases tail with
    | nil =>
        exact Nat.le_of_eq (by rw [harrived, List.append_nil])
    | cons a tail =>
        obtain ⟨rfl, -⟩ := List.cons.inj htail
        exact absurd (harrived ▸ List.mem_append_right _ List.mem_cons_self) hsep

/-- A piece of the stream that is shorter than its first line has no separator in it. -/
theorem incomplete {body rest tail coming : List α} (hbody : sep ∉ body)
    (h : tail ++ coming = body ++ sep :: rest) (hlength : tail.length ≤ body.length) :
    sep ∉ tail := by
  intro hsep
  obtain ⟨more, rfl, -⟩ := complete hbody h hsep
  simp only [List.length_append, List.length_cons] at hlength
  omega

/-- The first separator of a line. -/
theorem idxOf?_line [BEq α] [LawfulBEq α] {body : List α} (hbody : sep ∉ body) (rest : List α) :
    (body ++ sep :: rest).idxOf? sep = some body.length := by
  induction body with
  | nil => simp [List.idxOf?_cons]
  | cons a body ih =>
      have ha : (a == sep) = false := beq_eq_false_iff_ne.2 fun h => hbody (h ▸ List.mem_cons_self)
      rw [List.cons_append, List.idxOf?_cons, ha, ih fun h => hbody (List.mem_cons_of_mem a h)]
      rfl

end Lines
