/-
This file develops `String.prototype.toLowerCase` and `trim` on code units. Which letters outside
ASCII have a lower case is Unicode's data and a parameter; what stands before a letter may decide
between two of its lower cases, but only between ones outside ASCII. So a text behind another one
has the lower case it has alone, as far as texts of ASCII can tell.
-/

import AiSwitcher.Library.JsonText
import AiSwitcher.Library.Text
import Mathlib.Data.List.Forall2

namespace JavaScript

namespace LowerCase

open JsonText (Units)

/-- The same code unit, or two outside ASCII. -/
def Alike (first second : UInt16) : Prop :=
  first = second ∨ 128 ≤ first.toNat ∧ 128 ≤ second.toNat

def IsAscii (text : Units) : Prop :=
  ∀ unit ∈ text, unit.toNat < 128

instance (text : Units) : Decidable (IsAscii text) := List.decidableBAll _ text

/-- A code unit of whitespace. -/
def isSpace (unit : UInt16) : Bool := isWhitespace (.ofNat unit.toNat)

/-- The lower case of a code unit outside ASCII between its neighbours. -/
structure UnicodeCase where
  lower : (before : Units) → (unit : UInt16) → (after : Units) → Units
  alike : ∀ before other unit after,
    List.Forall₂ Alike (lower before unit after) (lower other unit after)
  space : ∀ before unit after, isSpace unit = true → lower before unit after = [unit]

def lowerAscii (unit : UInt16) : UInt16 :=
  if 65 ≤ unit.toNat ∧ unit.toNat ≤ 90 then unit + 32 else unit

variable (unicode : UnicodeCase)

def toLowerCaseFrom (before : Units) : Units → Units
  | [] => []
  | unit :: after =>
      (if unit.toNat < 128 then [lowerAscii unit] else unicode.lower before unit after) ++
        toLowerCaseFrom (before ++ [unit]) after

def toLowerCase (text : Units) : Units := toLowerCaseFrom unicode [] text

/-- `text.trim()` -/
def trimUnits (text : Units) : Units :=
  (text.dropWhile isSpace).rdropWhile isSpace

/-! ### What texts of ASCII can tell -/

theorem Alike.refl (unit : UInt16) : Alike unit unit := .inl rfl

theorem alike_toLowerCaseFrom (text before other : Units) :
    List.Forall₂ Alike (toLowerCaseFrom unicode before text) (toLowerCaseFrom unicode other text) := by
  induction text generalizing before other with
  | nil => exact .nil
  | cons unit after inductionHypothesis =>
    rw [toLowerCaseFrom, toLowerCaseFrom]
    refine List.rel_append ?_ (inductionHypothesis _ _)
    by_cases ascii : unit.toNat < 128
    · rw [if_pos ascii, if_pos ascii]
      exact .cons (.refl _) .nil
    · rw [if_neg ascii, if_neg ascii]
      exact unicode.alike before other unit after

theorem toLowerCaseFrom_append {ascii : Units} (isAscii : IsAscii ascii) (before rest : Units) :
    toLowerCaseFrom unicode before (ascii ++ rest) =
      ascii.map lowerAscii ++ toLowerCaseFrom unicode (before ++ ascii) rest := by
  induction ascii generalizing before with
  | nil => rw [List.append_nil]; rfl
  | cons unit ascii inductionHypothesis =>
    obtain ⟨unitAscii, restAscii⟩ := List.forall_mem_cons.mp isAscii
    rw [List.cons_append, toLowerCaseFrom, if_pos unitAscii, inductionHypothesis restAscii,
      List.append_assoc]
    rfl

/-- Alike texts are the same, or neither is of ASCII. -/
theorem eq_or_of_alike {first second : Units} (alike : List.Forall₂ Alike first second) :
    first = second ∨ ¬ IsAscii first ∧ ¬ IsAscii second := by
  induction alike with
  | nil => exact .inl rfl
  | @cons left right first second here _ inductionHypothesis =>
    rcases here with rfl | ⟨leftOther, rightOther⟩
    · rcases inductionHypothesis with rfl | ⟨firstOther, secondOther⟩
      · exact .inl rfl
      · exact .inr ⟨fun ascii => firstOther fun unit member => ascii unit (.tail _ member),
          fun ascii => secondOther fun unit member => ascii unit (.tail _ member)⟩
    · exact .inr ⟨fun ascii => absurd (ascii left (.head _)) (by omega),
        fun ascii => absurd (ascii right (.head _)) (by omega)⟩

theorem prefix_iff_of_alike {start : Units} (ascii : IsAscii start) : ∀ {first second : Units},
    List.Forall₂ Alike first second → (start <+: first ↔ start <+: second) := by
  induction start with
  | nil => exact fun _ => iff_of_true List.nil_prefix List.nil_prefix
  | cons unit start inductionHypothesis =>
    obtain ⟨unitAscii, startAscii⟩ := List.forall_mem_cons.mp ascii
    intro first second alike
    cases alike with
    | nil => exact Iff.rfl
    | cons here rest =>
      rw [List.cons_prefix_cons, List.cons_prefix_cons, inductionHypothesis startAscii rest]
      refine and_congr_left fun _ => ?_
      rcases here with rfl | ⟨leftOther, rightOther⟩
      · exact Iff.rfl
      · constructor
        · rintro rfl
          omega
        · rintro rfl
          omega

theorem lowerAscii_of_isSpace {unit : UInt16} (space : isSpace unit = true) :
    lowerAscii unit = unit := by
  refine if_neg fun letter => ?_
  have notSpace : ∀ code < 91, 65 ≤ code → isWhitespace (.ofNat code) = false := by decide
  rw [isSpace, notSpace _ (Nat.lt_succ_of_le letter.2) letter.1] at space
  cases space

theorem toLowerCase_space {unit : UInt16} (space : isSpace unit = true) (before after : Units) :
    toLowerCaseFrom unicode before (unit :: after) =
      unit :: toLowerCaseFrom unicode (before ++ [unit]) after := by
  rw [toLowerCaseFrom]
  by_cases ascii : unit.toNat < 128
  · rw [if_pos ascii, lowerAscii_of_isSpace space]
    rfl
  · rw [if_neg ascii, unicode.space _ _ _ space]
    rfl

theorem lt_of_lowerAscii {unit : UInt16} (ascii : (lowerAscii unit).toNat < 128) :
    unit.toNat < 128 := by
  rw [lowerAscii] at ascii
  by_cases letter : 65 ≤ unit.toNat ∧ unit.toNat ≤ 90
  · omega
  · rwa [if_neg letter] at ascii

/-! ### Trimming -/

theorem rdropWhile_append {last : UInt16} (kept : isSpace last = false) (start rest : Units) :
    (start ++ last :: rest).rdropWhile isSpace = start ++ last :: rest.rdropWhile isSpace := by
  induction rest using List.reverseRecOn with
  | nil => exact List.rdropWhile_concat_neg _ _ _ (by rw [kept]; exact Bool.false_ne_true)
  | append_singleton rest unit inductionHypothesis =>
    have whole : start ++ last :: (rest ++ [unit]) = (start ++ last :: rest) ++ [unit] := by
      rw [List.append_assoc, List.cons_append]
    rw [whole]
    by_cases space : isSpace unit = true
    · rw [List.rdropWhile_concat_pos _ _ _ space, List.rdropWhile_concat_pos _ _ _ space,
        inductionHypothesis]
    · rw [List.rdropWhile_concat_neg _ _ _ space, List.rdropWhile_concat_neg _ _ _ space, whole]

theorem trimUnits_of_start {unit : UInt16} (kept : isSpace unit = false) (rest : Units) :
    trimUnits (unit :: rest) = (unit :: rest).rdropWhile isSpace := by
  rw [trimUnits, List.dropWhile_cons_of_neg (by rw [kept]; exact Bool.false_ne_true)]

end LowerCase

end JavaScript
