import Mathlib.Data.List.Basic

set_option autoImplicit false

/-! # Parsers that know where a value ends

A parser takes a value off the front of its input, or fails. Two properties are closed under
sequencing: `Reads p text a` (the parser reads this text as `a`, whatever follows) and `Steady p`
(a parser that has succeeded does the same on a longer input, so it never looks past the value). -/

structure Parser (β α : Type) where
  run : List β → Option (α × List β)

namespace Parser

variable {β α γ : Type}

instance : Monad (Parser β) where
  pure a := ⟨fun input => some (a, input)⟩
  bind p f := ⟨fun input => (p.run input).bind fun r => (f r.1).run r.2⟩

def fail : Parser β α := ⟨fun _ => none⟩

/-- The next symbol. -/
def item : Parser β β := ⟨fun
  | [] => none
  | b :: rest => some (b, rest)⟩

/-- A given text. -/
def literal [DecidableEq β] (text : List β) : Parser β Unit := ⟨fun input =>
  if input.take text.length = text then some ((), input.drop text.length) else none⟩

/-- Everything before a separator, which is dropped. -/
def upTo [DecidableEq β] (sep : β) : Parser β (List β) := ⟨fun input =>
  if sep ∈ input then
    some (input.takeWhile (· ≠ sep), (input.dropWhile (· ≠ sep)).drop 1)
  else none⟩

/-- A value that is there or not. -/
def ofOption : Option α → Parser β α
  | some a => pure a
  | none => fail

/-- Values one after the other, until the parser finds the end of them. -/
def collect (p : Parser β (Option α)) : Nat → List β → Option (List α × List β)
  | 0, _ => none
  | n + 1, input =>
      match p.run input with
      | none => none
      | some (none, rest) => some ([], rest)
      | some (some a, rest) => (collect p n rest).map fun r => (a :: r.1, r.2)

/-- As many values as there are; each of them takes at least one symbol. -/
def manyUntil (p : Parser β (Option α)) : Parser β (List α) := ⟨fun input =>
  p.collect input.length input⟩

/-- With more fuel the same values are found. -/
theorem collect_mono {p : Parser β (Option α)} {n m : Nat} (hle : n ≤ m) {input : List β}
    {r : List α × List β} (h : p.collect n input = some r) : p.collect m input = some r := by
  induction n generalizing m input r with
  | zero => cases h
  | succ n ih =>
      obtain ⟨m, rfl⟩ : ∃ m', m = m' + 1 := ⟨m - 1, by omega⟩
      rw [collect] at h ⊢
      cases hp : p.run input with
      | none =>
          rw [hp] at h
          cases h
      | some v =>
          obtain ⟨o, rest⟩ := v
          rw [hp] at h
          cases o with
          | none => exact h
          | some a =>
              obtain ⟨r', hr', rfl⟩ := Option.map_eq_some_iff.1 h
              dsimp only
              rw [ih (Nat.le_of_succ_le_succ hle) hr']
              rfl

/-! ## Texts that are read -/

/-- The parser reads the text as `a`, whatever follows it. -/
def Reads (p : Parser β α) (text : List β) (a : α) : Prop :=
  ∀ rest, p.run (text ++ rest) = some (a, rest)

namespace Reads

theorem pure (a : α) : Reads (Pure.pure a : Parser β α) [] a := fun _ => rfl

theorem bind {p : Parser β α} {f : α → Parser β γ} {text text' : List β} {a : α} {c : γ}
    (hp : Reads p text a) (hf : Reads (f a) text' c) : Reads (p >>= f) (text ++ text') c := by
  intro rest
  show (p.run (text ++ text' ++ rest)).bind _ = _
  rw [List.append_assoc, hp]
  exact hf rest

theorem item (b : β) : Reads Parser.item [b] b := fun _ => rfl

/-- Values are read one by one, up to the text that ends them. -/
theorem manyUntil {p : Parser β (Option α)} {text : α → List β} {close : List β} {as : List α}
    (has : ∀ a ∈ as, Reads p (text a) (some a) ∧ text a ≠ []) (hclose : Reads p close none)
    (hend : close ≠ []) : Reads (Parser.manyUntil p) (as.flatMap text ++ close) as := by
  have hcollect : ∀ rest, p.collect (as.length + 1) (as.flatMap text ++ close ++ rest)
      = some (as, rest) := by
    intro rest
    induction as with
    | nil => simp only [List.flatMap_nil, List.nil_append, collect, hclose rest]
    | cons a as ih =>
        have ha := (has a List.mem_cons_self).1
        have hrest := ih fun a' ha' => has a' (List.mem_cons_of_mem a ha')
        simp only [List.append_assoc] at hrest
        rw [List.length_cons, collect, List.flatMap_cons, List.append_assoc, List.append_assoc, ha]
        dsimp only
        rw [hrest]
        rfl
  have hcount : as.length ≤ (as.flatMap text).length := by
    clear hcollect
    induction as with
    | nil => exact Nat.le_refl 0
    | cons a as ih =>
        have ha := List.length_pos_iff.2 (has a List.mem_cons_self).2
        have hrest := ih fun a' ha' => has a' (List.mem_cons_of_mem a ha')
        rw [List.flatMap_cons, List.length_append, List.length_cons]
        omega
  have hclosing := List.length_pos_iff.2 hend
  intro rest
  refine collect_mono ?_ (hcollect rest)
  simp only [List.length_append]
  omega

variable [DecidableEq β]

theorem literal (text : List β) : Reads (Parser.literal text) text () := by
  intro rest
  simp [Parser.literal]

theorem upTo {sep : β} {body : List β} (h : sep ∉ body) :
    Reads (Parser.upTo sep) (body ++ [sep]) body := by
  intro rest
  have hbody : ∀ b ∈ body, decide (b ≠ sep) = true := fun b hb =>
    decide_eq_true fun heq => h (heq ▸ hb)
  have hmem : sep ∈ body ++ [sep] ++ rest := by simp
  rw [Parser.upTo]
  dsimp only
  rw [if_pos hmem, List.append_assoc, List.takeWhile_append_of_pos hbody,
    List.dropWhile_append_of_pos hbody]
  simp

end Reads

/-! ## Parsers that do not look past the value -/

/-- On a longer input the parser does the same. -/
def Steady (p : Parser β α) : Prop :=
  ∀ input a rest more, p.run input = some (a, rest) → p.run (input ++ more) = some (a, rest ++ more)

namespace Steady

theorem pure (a : α) : Steady (Pure.pure a : Parser β α) := by
  intro input a' rest more h
  cases h
  rfl

theorem fail : Steady (Parser.fail : Parser β α) := by
  intro input a rest more h
  cases h

theorem bind {p : Parser β α} {f : α → Parser β γ} (hp : Steady p) (hf : ∀ a, Steady (f a)) :
    Steady (p >>= f) := by
  intro input c rest more h
  obtain ⟨⟨a, rest'⟩, ha, hc⟩ := Option.bind_eq_some_iff.1 h
  show (p.run (input ++ more)).bind _ = _
  rw [hp _ _ _ more ha]
  exact hf a _ _ _ more hc

theorem ite {c : Prop} [Decidable c] {p q : Parser β α} (hp : Steady p) (hq : Steady q) :
    Steady (if c then p else q) := by
  split
  · exact hp
  · exact hq

theorem ofOption (o : Option α) : Steady (Parser.ofOption o : Parser β α) := by
  cases o with
  | none => exact fail
  | some a => exact pure a

theorem item : Steady (Parser.item : Parser β β) := by
  intro input b rest more h
  cases input with
  | nil => cases h
  | cons b' input =>
      cases h
      rfl

theorem manyUntil {p : Parser β (Option α)} (hp : Steady p) : Steady (Parser.manyUntil p) := by
  have hcollect : ∀ n input as rest more, p.collect n input = some (as, rest) →
      p.collect n (input ++ more) = some (as, rest ++ more) := by
    intro n
    induction n with
    | zero =>
        intro input as rest more h
        cases h
    | succ n ih =>
        intro input as rest more h
        rw [collect] at h ⊢
        cases hrun : p.run input with
        | none =>
            rw [hrun] at h
            cases h
        | some v =>
            obtain ⟨o, rest'⟩ := v
            rw [hrun] at h
            rw [hp _ _ _ more hrun]
            cases o with
            | none =>
                cases h
                rfl
            | some a =>
                obtain ⟨⟨as', rest''⟩, hr, heq⟩ := Option.map_eq_some_iff.1 h
                cases heq
                dsimp only
                rw [ih _ _ _ more hr]
                rfl
  intro input as rest more h
  refine collect_mono ?_ (hcollect _ _ _ _ more h)
  rw [List.length_append]
  exact Nat.le_add_right _ _

variable [DecidableEq β]

theorem literal (text : List β) : Steady (Parser.literal text) := by
  intro input u rest more h
  dsimp only [Parser.literal] at h ⊢
  split at h
  · rename_i htake
    cases h
    have hlength : text.length ≤ input.length := by
      have hle := congrArg List.length htake
      rw [List.length_take] at hle
      omega
    rw [List.take_append_of_le_length hlength, if_pos htake, List.drop_append_of_le_length hlength]
  · cases h

theorem upTo (sep : β) : Steady (Parser.upTo sep) := by
  intro input body rest more h
  have hsep : sep ∈ input := by
    by_contra hno
    simp only [Parser.upTo, if_neg hno] at h
    cases h
  obtain ⟨body', rest', rfl, hbody⟩ := List.eq_append_cons_of_mem hsep
  have hread := Reads.upTo hbody rest'
  have hmore := Reads.upTo hbody (rest' ++ more)
  simp only [List.append_assoc, List.singleton_append] at hread hmore
  rw [hread] at h
  cases h
  rw [List.append_assoc]
  exact hmore

end Steady

end Parser
