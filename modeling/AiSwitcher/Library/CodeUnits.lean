/-
This file develops a JavaScript string as its UTF-16 code units: the text they spell, its lines,
and the pieces it is cut into.
-/

import AiSwitcher.Library.JsonWriting
import AiSwitcher.Library.Lines

namespace JavaScript

namespace JsonText

/-- The text that code units spell; a half of a pair that stands alone is replaced. -/
def charsOf : Units → List Char
  | [] => []
  | [unit] => [if isHigh unit || isLow unit then '\uFFFD' else .ofNat unit.toNat]
  | first :: second :: rest =>
      if isHigh first && isLow second then pairChar first second :: charsOf rest
      else (if isHigh first || isLow first then '\uFFFD' else .ofNat first.toNat) ::
        charsOf (second :: rest)

/-- The code unit of a newline. -/
def newlineUnit : UInt16 := 10

theorem unitsOfChar_cases (char : Char) :
    (∃ unit : UInt16, unitsOfChar char = [unit] ∧ unit.toNat = char.toNat ∧ isHigh unit = false ∧
      isLow unit = false) ∨
    ∃ high low : UInt16, unitsOfChar char = [high, low] ∧ isHigh high = true ∧ isLow low = true ∧
      pairChar high low = char := by
  have valid : char.toNat < 0xD800 ∨ 0xDFFF < char.toNat ∧ char.toNat < 0x110000 := char.valid
  rw [unitsOfChar]
  by_cases small : char.toNat < 0x10000
  · have value : (UInt16.ofNat char.toNat).toNat = char.toNat := UInt16.toNat_ofNat_of_lt' small
    refine .inl ⟨.ofNat char.toNat, if_pos small, value, ?_, ?_⟩
    · rw [isHigh, value, Bool.and_eq_false_iff, decide_eq_false_iff_not, decide_eq_false_iff_not]
      omega
    · rw [isLow, value, Bool.and_eq_false_iff, decide_eq_false_iff_not, decide_eq_false_iff_not]
      omega
  · have high : (UInt16.ofNat (0xD800 + (char.toNat - 0x10000) / 0x400)).toNat =
        0xD800 + (char.toNat - 0x10000) / 0x400 :=
      UInt16.toNat_ofNat_of_lt' (show _ < 65536 by omega)
    have low : (UInt16.ofNat (0xDC00 + (char.toNat - 0x10000) % 0x400)).toNat =
        0xDC00 + (char.toNat - 0x10000) % 0x400 :=
      UInt16.toNat_ofNat_of_lt' (show _ < 65536 by omega)
    refine .inr ⟨_, _, if_neg small, ?_, ?_, ?_⟩
    · rw [isHigh, high, Bool.and_eq_true, decide_eq_true_iff, decide_eq_true_iff]
      omega
    · rw [isLow, low, Bool.and_eq_true, decide_eq_true_iff, decide_eq_true_iff]
      omega
    · rw [pairChar, high, low]
      have point : 0x10000 + (0xD800 + (char.toNat - 0x10000) / 0x400 - 0xD800) * 0x400 +
          (0xDC00 + (char.toNat - 0x10000) % 0x400 - 0xDC00) = char.toNat := by omega
      rw [point, Char.ofNat_toNat]

theorem charsOf_cons {unit : UInt16} (notHigh : isHigh unit = false) (notLow : isLow unit = false)
    (rest : Units) : charsOf (unit :: rest) = .ofNat unit.toNat :: charsOf rest := by
  cases rest with
  | nil => simp only [charsOf, notHigh, notLow, Bool.or_false, Bool.false_eq_true, if_false]
  | cons next rest =>
    rw [charsOf, notHigh, notLow]
    rfl

/-- The code units of a text spell it. -/
theorem charsOf_codeUnits (text : List Char) : charsOf (codeUnits text) = text := by
  induction text with
  | nil => rfl
  | cons char text inductionHypothesis =>
    rw [codeUnits, List.flatMap_cons]
    change charsOf (unitsOfChar char ++ codeUnits text) = _
    rcases unitsOfChar_cases char with ⟨unit, units, value, notHigh, notLow⟩ |
      ⟨high, low, units, isHigh, isLow, pair⟩
    · rw [units, List.singleton_append, charsOf_cons notHigh notLow, value, Char.ofNat_toNat,
        inductionHypothesis]
    · rw [units, List.cons_append, List.singleton_append, charsOf, isHigh, isLow, Bool.and_self,
        if_pos rfl, pair, inductionHypothesis]

theorem newlineUnit_mem_iff (char : Char) : newlineUnit ∈ unitsOfChar char ↔ char = '\n' := by
  rcases unitsOfChar_cases char with ⟨unit, units, value, -, -⟩ |
    ⟨high, low, units, isHigh, isLow, pair⟩
  · rw [units, List.mem_singleton]
    constructor
    · intro same
      rw [← same] at value
      exact Char.ext (UInt32.toNat_inj.mp value.symm)
    · rintro rfl
      exact UInt16.toNat_inj.mp value.symm
  · refine ⟨fun member => ?_, ?_⟩
    · rw [units, List.mem_pair] at member
      rcases member with same | same
      · rw [← same] at isHigh
        cases isHigh
      · rw [← same] at isLow
        cases isLow
    · rintro rfl
      cases units

/-- The lines of a text as code units. -/
theorem split_codeUnits (text : List Char) :
    Lines.split newlineUnit (codeUnits text) = (Lines.split '\n' text).map codeUnits :=
  Lines.split_flatMap '\n' (fun char => (newlineUnit_mem_iff char).mp) rfl text

/-! ### Pieces -/

/-- `text.slice(i, i + size)` for every multiple `i` of `size` below the length. -/
def pieces (size : Nat) (units : Units) : List Units :=
  (List.range ((units.length + size - 1) / size)).map fun index =>
    (units.drop (index * size)).take size

theorem flatten_pieces {size : Nat} (positive : 0 < size) (units : Units) :
    (pieces size units).flatten = units := by
  have first (count : Nat) : ((List.range count).map fun index =>
      (units.drop (index * size)).take size).flatten = units.take (count * size) := by
    induction count with
    | zero => rw [Nat.zero_mul, List.take_zero]; rfl
    | succ count inductionHypothesis =>
      rw [List.range_succ, List.map_append, List.flatten_append, inductionHypothesis, Nat.succ_mul,
        List.take_add]
      simp
  rw [pieces, first]
  refine List.take_of_length_le ?_
  have whole := Nat.div_add_mod (units.length + size - 1) size
  have small := Nat.mod_lt (units.length + size - 1) positive
  rw [Nat.mul_comm] at whole
  omega

end JsonText

end JavaScript
