/-
This file develops file name patterns in which `*` stands for any text, as shells and
synchronisers match them against one name. A pattern is matched from the left, so what
it accepts is computed part by part: a text without `*` stands for itself.
-/

import Mathlib.Data.List.Infix

namespace Glob

def accepts : List Char → List Char → Bool
  | [], name => name.isEmpty
  | symbol :: pattern, name =>
      if symbol = '*' then name.tails.any (accepts pattern)
      else
        match name with
        | [] => false
        | char :: rest => char == symbol && accepts pattern rest

theorem accepts_nil (name : List Char) : accepts [] name = true ↔ name = [] :=
  List.isEmpty_iff

theorem accepts_cons (symbol : Char) (pattern name : List Char) :
    accepts (symbol :: pattern) name =
      if symbol = '*' then name.tails.any (accepts pattern)
      else
        match name with
        | [] => false
        | char :: rest => char == symbol && accepts pattern rest := by
  cases name <;> rfl

theorem accepts_star (pattern name : List Char) :
    accepts ('*' :: pattern) name = true ↔
      ∃ before rest, name = before ++ rest ∧ accepts pattern rest = true := by
  rw [accepts_cons, if_pos rfl, List.any_eq_true]
  simp only [List.mem_tails]
  constructor
  · rintro ⟨rest, ⟨before, rfl⟩, accepted⟩
    exact ⟨before, rest, rfl, accepted⟩
  · rintro ⟨before, rest, rfl, accepted⟩
    exact ⟨rest, List.suffix_append _ _, accepted⟩

/-- A text without `*` stands for itself. -/
theorem accepts_append {literal : List Char} (plain : '*' ∉ literal) (pattern name : List Char) :
    accepts (literal ++ pattern) name = true ↔
      ∃ rest, name = literal ++ rest ∧ accepts pattern rest = true := by
  induction literal generalizing name with
  | nil => simp only [List.nil_append, exists_eq_left']
  | cons symbol literal inductionHypothesis =>
    rw [List.mem_cons, not_or] at plain
    rw [List.cons_append, accepts_cons, if_neg (Ne.symm plain.1)]
    cases name with
    | nil => simp
    | cons char rest =>
      simp only [Bool.and_eq_true, beq_iff_eq, inductionHypothesis plain.2, List.cons_append,
        List.cons.injEq]
      constructor
      · rintro ⟨same, behind, rfl, accepted⟩
        exact ⟨behind, ⟨same, rfl⟩, accepted⟩
      · rintro ⟨behind, ⟨same, rfl⟩, accepted⟩
        exact ⟨same, behind, rfl, accepted⟩

theorem accepts_literal {literal : List Char} (plain : '*' ∉ literal) (name : List Char) :
    accepts literal name = true ↔ name = literal := by
  have whole := accepts_append plain [] name
  simp only [accepts_nil, exists_eq_right, List.append_nil] at whole
  exact whole

theorem accepts_ending {ending : List Char} (plain : '*' ∉ ending) (name : List Char) :
    accepts ('*' :: ending) name = true ↔ ending <:+ name := by
  simp only [accepts_star, accepts_literal plain, exists_eq_right]
  exact exists_congr fun before => eq_comm

theorem accepts_beginning {beginning : List Char} (plain : '*' ∉ beginning) (name : List Char) :
    accepts (beginning ++ ['*']) name = true ↔ beginning <+: name := by
  rw [accepts_append plain]
  constructor
  · rintro ⟨rest, rfl, -⟩
    exact List.prefix_append _ _
  · rintro ⟨rest, rfl⟩
    exact ⟨rest, rfl, (accepts_star [] rest).mpr ⟨rest, [], (List.append_nil _).symm, rfl⟩⟩

/-- `first*second*` -/
theorem accepts_around {first second : List Char} (plain : '*' ∉ first) (plainSecond : '*' ∉ second)
    (name : List Char) :
    accepts (first ++ '*' :: (second ++ ['*'])) name = true ↔
      ∃ between, first ++ between ++ second <+: name := by
  rw [accepts_append plain]
  simp only [accepts_star, accepts_beginning plainSecond]
  constructor
  · rintro ⟨rest, rfl, between, last, rfl, ending, rfl⟩
    exact ⟨between, ending, by simp only [List.append_assoc]⟩
  · rintro ⟨between, ending, rfl⟩
    refine ⟨between ++ (second ++ ending), by simp only [List.append_assoc], between,
      second ++ ending, rfl, ending, rfl⟩

end Glob
