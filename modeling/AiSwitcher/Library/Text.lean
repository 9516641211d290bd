/-
This file models the JavaScript string operations the verified programs use, on
the characters of a string: trimming, prefixes and suffixes, and slicing.
-/

import Mathlib.Algebra.GroupWithZero.Nat
import Mathlib.Data.List.DropRight

namespace JavaScript

/-- The characters `String.prototype.trim` removes. -/
def isWhitespace (character : Char) : Bool :=
  let code := character.toNat
  (0x9 ≤ code && code ≤ 0xD) || code == 0x20 || code == 0xA0 || code == 0x1680 ||
    (0x2000 ≤ code && code ≤ 0x200A) || code == 0x2028 || code == 0x2029 || code == 0x202F ||
    code == 0x205F || code == 0x3000 || code == 0xFEFF

def trim (text : String) : String :=
  .ofList (((text.toList.dropWhile isWhitespace).reverse.dropWhile isWhitespace).reverse)

/-- The characters of a text without the whitespace around them. -/
theorem toList_trim (text : String) : (trim text).toList =
    (text.toList.dropWhile isWhitespace).rdropWhile isWhitespace := by
  rw [trim, String.toList_ofList, List.rdropWhile]

theorem trim_trim (text : String) : trim (trim text) = trim text := by
  apply String.toList_injective
  rw [toList_trim, toList_trim]
  have head : ((text.toList.dropWhile isWhitespace).rdropWhile isWhitespace).dropWhile
      isWhitespace = (text.toList.dropWhile isWhitespace).rdropWhile isWhitespace := by
    rw [List.dropWhile_eq_self_iff]
    intro nonempty
    have longer := (List.rdropWhile_prefix isWhitespace
      (text.toList.dropWhile isWhitespace)).length_le
    rw [(List.rdropWhile_prefix isWhitespace (text.toList.dropWhile isWhitespace)).getElem nonempty]
    exact List.dropWhile_get_zero_not isWhitespace text.toList (nonempty.trans_le longer)
  rw [head, List.rdropWhile_idempotent]

def startsWith (text start : String) : Bool :=
  start.toList.isPrefixOf text.toList

def endsWith (text ending : String) : Bool :=
  ending.toList.isSuffixOf text.toList

/-- `text.slice(count)`. -/
def sliceFrom (text : String) (count : Nat) : String :=
  .ofList (text.toList.drop count)

/-- `text.slice(0, -count)`. -/
def sliceToEnd (text : String) (count : Nat) : String :=
  .ofList (text.toList.take (text.toList.length - count))

/-! ### Code units -/

/-- The UTF-16 code units of a character. -/
def unitsOf (char : Char) : Nat := if char.toNat < 0x10000 then 1 else 2

/-- `text.length` -/
def unitLength (text : String) : Nat := (text.toList.map unitsOf).sum

def takeUnits : Nat → List Char → List Char
  | _, [] => []
  | units, char :: rest =>
      if unitsOf char ≤ units then char :: takeUnits (units - unitsOf char) rest else []

/-- `text.slice(0, units)`; half of a surrogate pair at the cut is left out. -/
def sliceTo (units : Nat) (text : String) : String := .ofList (takeUnits units text.toList)

/-! ### Decimal digits -/

theorem not_mem_toDigits {character : Char} (notDigit : character.isDigit = false) (number : Nat) :
    character ∉ Nat.toDigits 10 number := by
  intro member
  have isDigit := Nat.isDigit_of_mem_toDigits (by decide) (by decide) member
  rw [notDigit] at isDigit
  cases isDigit

theorem toDigits_injective {first second : Nat}
    (same : Nat.toDigits 10 first = Nat.toDigits 10 second) : first = second := by
  rw [← @Nat.ofDigitChars_ten_toDigits first, same, Nat.ofDigitChars_ten_toDigits]

end JavaScript
