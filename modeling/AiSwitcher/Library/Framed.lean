/-
This file develops how values are put one after the other so that they can be told apart: each
value behind its length, the length as a number of fixed width. As many values that are framed
alike are the same values.
-/

import Mathlib.Data.Nat.Basic
import Mathlib.Tactic.Ring

namespace Framed

/-- A number as `width` bytes, the highest first; higher digits are lost. -/
def bigEndian : (width value : Nat) → List UInt8
  | 0, _ => []
  | width + 1, value => bigEndian width (value / 256) ++ [UInt8.ofNat value]

theorem length_bigEndian (width : Nat) : ∀ value, (bigEndian width value).length = width := by
  induction width with
  | zero => exact fun _ => rfl
  | succ width inductionHypothesis =>
    intro value
    rw [bigEndian, List.length_append, inductionHypothesis, List.length_singleton]

theorem bigEndian_injective {width : Nat} : ∀ {first second : Nat}, first < 256 ^ width →
    second < 256 ^ width → bigEndian width first = bigEndian width second → first = second := by
  induction width with
  | zero =>
    intro first second firstSmall secondSmall _
    omega
  | succ width inductionHypothesis =>
    intro first second firstSmall secondSmall same
    rw [bigEndian, bigEndian, List.append_singleton_inj] at same
    have high : first / 256 = second / 256 := by
      refine inductionHypothesis ?_ ?_ same.1
      · rw [pow_succ] at firstSmall
        exact Nat.div_lt_of_lt_mul (by rwa [Nat.mul_comm])
      · rw [pow_succ] at secondSmall
        exact Nat.div_lt_of_lt_mul (by rwa [Nat.mul_comm])
    have low : first % 256 = second % 256 := by
      have bytes := congrArg UInt8.toNat same.2
      rwa [UInt8.toNat_ofNat', UInt8.toNat_ofNat'] at bytes
    omega

section Fields

variable {width : Nat}

/-- A value behind its length. -/
def field (width : Nat) (value : List UInt8) : List UInt8 := bigEndian width value.length ++ value

theorem field_append_injective {first second firstRest secondRest : List UInt8}
    (firstFits : first.length < 256 ^ width) (secondFits : second.length < 256 ^ width)
    (same : field width first ++ firstRest = field width second ++ secondRest) :
    first = second ∧ firstRest = secondRest := by
  rw [field, field, List.append_assoc, List.append_assoc] at same
  obtain ⟨lengths, values⟩ := List.append_inj same
    (by rw [length_bigEndian, length_bigEndian])
  exact List.append_inj values (bigEndian_injective firstFits secondFits lengths)

/-- As many values that are framed alike are the same. -/
theorem flatMap_field_injective : ∀ {first second : List (List UInt8)},
    first.length = second.length → (∀ value ∈ first, value.length < 256 ^ width) →
    (∀ value ∈ second, value.length < 256 ^ width) →
    first.flatMap (field width) = second.flatMap (field width) → first = second
  | [], [], _, _, _, _ => rfl
  | first :: firstRest, second :: secondRest, lengths, firstFit, secondFit, same => by
      rw [List.forall_mem_cons] at firstFit secondFit
      rw [List.flatMap_cons, List.flatMap_cons] at same
      obtain ⟨rfl, rest⟩ := field_append_injective firstFit.1 secondFit.1 same
      exact congrArg _ (flatMap_field_injective (Nat.succ.inj lengths) firstFit.2 secondFit.2 rest)

end Fields

end Framed
