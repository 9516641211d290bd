/-
This file is a small library of numerals in texts of code units: the digits of a number to a base,
`parseInt` of the language, and that the one reads back what the other wrote. Reading stops at the
first unit that is no digit.
-/

import AiSwitcher.Library.LowerCase
import Mathlib.Tactic.Ring

namespace JavaScript.Numerals

open JsonText (Units)
open LowerCase (isSpace)

/-! ### Writing -/

/-- Letters are capital. -/
def digitUnit (digit : ℕ) : UInt16 := .ofNat (if digit < 10 then 48 + digit else 55 + digit)

/-- The last digits of a number, as many as the width says. -/
def numeral (base : ℕ) : ℕ → ℕ → Units
  | 0, _ => []
  | width + 1, number => numeral base width (number / base) ++ [digitUnit (number % base)]

/-- `String(number)` -/
def decimal (number : ℕ) : Units := (Nat.toDigits 10 number).map fun digit => .ofNat digit.toNat

/-! ### Reading -/

def digitValue (unit : UInt16) : Option ℕ :=
  let code := unit.toNat
  if 48 ≤ code ∧ code ≤ 57 then some (code - 48)
  else if 65 ≤ code ∧ code ≤ 90 then some (code - 55)
  else if 97 ≤ code ∧ code ≤ 122 then some (code - 87)
  else none

def digitOf (base : ℕ) (unit : UInt16) : Option ℕ := (digitValue unit).filter (· < base)

/-- The number that the first digits of a text make, after what was read. -/
def readDigits (base : ℕ) (read : Option ℕ) : Units → Option ℕ
  | [] => read
  | unit :: rest =>
      match digitOf base unit with
      | some digit => readDigits base (some (read.getD 0 * base + digit)) rest
      | none => read

/-- The sign of a number and what follows it. -/
def readSign (text : Units) : Bool × Units :=
  match text with
  | [] => (false, [])
  | unit :: rest =>
      if unit = 45 then (true, rest) else if unit = 43 then (false, rest) else (false, text)

/-- Without `0x` in front, if the base is 16. -/
def dropPrefix (base : ℕ) (text : Units) : Units :=
  match text with
  | zero :: letter :: rest =>
      if base = 16 ∧ zero = 48 ∧ (letter = 88 ∨ letter = 120) then rest else text
  | _ => text

/-- `Number.parseInt(text, base)`, `none` for NaN. The digits beyond the precision of a number
are kept. -/
def parseInt (base : ℕ) (text : Units) : Option ℤ :=
  let (negative, digits) := readSign (text.dropWhile isSpace)
  (readDigits base none (dropPrefix base digits)).map fun number =>
    if negative then -number else number

/-! ### Reading what was written -/

theorem digitValue_digitUnit : ∀ digit < 36, digitValue (digitUnit digit) = some digit := by
  decide

theorem digitOf_digitUnit {base digit : ℕ} (bound : base ≤ 36) (isDigit : digit < base) :
    digitOf base (digitUnit digit) = some digit := by
  rw [digitOf, digitValue_digitUnit digit (isDigit.trans_le bound)]
  exact Option.filter_eq_some_iff.mpr ⟨rfl, decide_eq_true isDigit⟩

theorem readDigits_append {base : ℕ} {digits : Units}
    (all : ∀ unit ∈ digits, digitOf base unit ≠ none) (rest : Units) : ∀ read,
    readDigits base read (digits ++ rest) = readDigits base (readDigits base read digits) rest := by
  induction digits with
  | nil => exact fun read => rfl
  | cons unit digits inductionHypothesis =>
    intro read
    obtain ⟨isDigit, others⟩ := List.forall_mem_cons.mp all
    obtain ⟨digit, isValue⟩ := Option.ne_none_iff_exists'.mp isDigit
    rw [List.cons_append, readDigits, readDigits, isValue]
    exact inductionHypothesis others _

theorem digitOf_numeral {base : ℕ} (bound : base ≤ 36) (positive : 0 < base) (width number : ℕ) :
    ∀ unit ∈ numeral base width number, digitOf base unit ≠ none := by
  induction width generalizing number with
  | zero => exact List.forall_mem_nil _
  | succ width inductionHypothesis =>
    rw [numeral, List.forall_mem_append, List.forall_mem_singleton,
      digitOf_digitUnit bound (Nat.mod_lt _ positive)]
    exact ⟨inductionHypothesis _, Option.some_ne_none _⟩

theorem length_numeral (base width number : ℕ) : (numeral base width number).length = width := by
  induction width generalizing number with
  | zero => rfl
  | succ width inductionHypothesis =>
    rw [numeral, List.length_append, inductionHypothesis, List.length_singleton]

theorem readDigits_numeral {base : ℕ} (bound : base ≤ 36) (positive : 0 < base) (width : ℕ) :
    ∀ number read, readDigits base (some read) (numeral base width number) =
      some (read * base ^ width + number % base ^ width) := by
  induction width with
  | zero =>
    intro number read
    rw [numeral, readDigits, pow_zero, mul_one, Nat.mod_one, add_zero]
  | succ width inductionHypothesis =>
    intro number read
    rw [numeral, readDigits_append (digitOf_numeral bound positive _ _), inductionHypothesis,
      readDigits, digitOf_digitUnit bound (Nat.mod_lt _ positive)]
    dsimp only
    rw [readDigits, Option.getD_some, pow_succ', Nat.mod_mul]
    exact congrArg some (by ring)

theorem digitOf_range {base : ℕ} {unit : UInt16} (isDigit : digitOf base unit ≠ none) :
    48 ≤ unit.toNat ∧ unit.toNat ≤ 122 := by
  by_contra outside
  refine isDigit ?_
  rw [digitOf, digitValue, if_neg (by omega), if_neg (by omega), if_neg (by omega)]
  rfl

theorem not_isSpace_of_digit {base : ℕ} {unit : UInt16} (isDigit : digitOf base unit ≠ none) :
    isSpace unit = false := by
  have table : ∀ code < 123, 48 ≤ code → isWhitespace (.ofNat code) = false := by decide
  obtain ⟨least, most⟩ := digitOf_range isDigit
  exact table unit.toNat (Nat.lt_succ_of_le most) least

/-- Digits have no sign and no prefix. -/
theorem parseInt_digits {base : ℕ} {digits : Units} (present : digits ≠ [])
    (all : ∀ unit ∈ digits, digitOf base unit ≠ none) :
    parseInt base digits = (readDigits base (some 0) digits).map fun number => (number : ℤ) := by
  cases digits with
  | nil => exact absurd rfl present
  | cons unit rest =>
    obtain ⟨isDigit, others⟩ := List.forall_mem_cons.mp all
    have range := digitOf_range isDigit
    have noMinus : unit ≠ 45 := fun same => absurd range.1 (by rw [same]; decide)
    have noPlus : unit ≠ 43 := fun same => absurd range.1 (by rw [same]; decide)
    have noPrefix : dropPrefix base (unit :: rest) = unit :: rest := by
      cases rest with
      | nil => rfl
      | cons letter rest =>
        refine if_neg fun isPrefix => (List.forall_mem_cons.mp others).1 ?_
        rw [isPrefix.1]
        rcases isPrefix.2.2 with rfl | rfl
        · decide
        · decide
    obtain ⟨digit, isValue⟩ := Option.ne_none_iff_exists'.mp isDigit
    rw [parseInt, List.dropWhile_cons_of_neg (by rw [not_isSpace_of_digit isDigit]; decide),
      readSign, if_neg noMinus, if_neg noPlus]
    dsimp only
    rw [noPrefix, readDigits, readDigits, isValue]
    rfl

theorem parseInt_numeral {base width : ℕ} (bound : base ≤ 36) (positive : 0 < base)
    (wide : 0 < width) (number : ℕ) :
    parseInt base (numeral base width number) = some ↑(number % base ^ width) := by
  have present : numeral base width number ≠ [] :=
    List.ne_nil_of_length_pos (by rw [length_numeral]; exact wide)
  rw [parseInt_digits present (digitOf_numeral bound positive _ _),
    readDigits_numeral bound positive, zero_mul, zero_add]
  rfl

/-- The digits of a number are those of its high part and then those of its low part. -/
theorem numeral_add (base high low number : ℕ) : numeral base (high + low) number =
    numeral base high (number / base ^ low) ++ numeral base low number := by
  induction low generalizing number with
  | zero => rw [Nat.add_zero, pow_zero, Nat.div_one, numeral, List.append_nil]
  | succ low inductionHypothesis =>
    rw [← Nat.add_assoc, numeral, inductionHypothesis, numeral, Nat.div_div_eq_div_mul, ← pow_succ',
      List.append_assoc]

theorem numeral_mod (base width number : ℕ) :
    numeral base width (number % base ^ width) = numeral base width number := by
  induction width generalizing number with
  | zero => rfl
  | succ width inductionHypothesis =>
    rw [numeral, numeral, pow_succ', Nat.mod_mul_right_div_self, inductionHypothesis,
      Nat.mod_mod_of_dvd _ (Dvd.intro _ rfl)]

/-! ### Decimal numbers -/

theorem digitOf_isDigit {digit : Char} (isDigit : digit.isDigit = true) :
    digitOf 10 (.ofNat digit.toNat) = some (digit.toNat - '0'.toNat) := by
  obtain ⟨least, most⟩ := Char.isDigit_iff_toNat.mp isDigit
  have zero : '0'.toNat = 48 := rfl
  have nine : '9'.toNat = 57 := rfl
  rw [zero] at least ⊢
  rw [nine] at most
  have same : (UInt16.ofNat digit.toNat).toNat = digit.toNat :=
    UInt16.toNat_ofNat_of_lt (most.trans_lt (by decide))
  rw [digitOf, digitValue, same, if_pos ⟨least, most⟩]
  exact Option.filter_eq_some_iff.mpr ⟨rfl, decide_eq_true (by omega)⟩

theorem digitOf_decimal (number : ℕ) : ∀ unit ∈ decimal number, digitOf 10 unit ≠ none := by
  intro unit member
  obtain ⟨digit, among, rfl⟩ := List.mem_map.mp member
  rw [digitOf_isDigit (Nat.isDigit_of_mem_toDigits (by decide) (by decide) among)]
  exact Option.some_ne_none _

theorem readDigits_decimal (digits : List Char) (all : ∀ digit ∈ digits, digit.isDigit = true) :
    ∀ read, readDigits 10 (some read) (digits.map fun digit => .ofNat digit.toNat) =
      some (Nat.ofDigitChars 10 digits read) := by
  induction digits with
  | nil => exact fun read => rfl
  | cons digit rest inductionHypothesis =>
    intro read
    obtain ⟨isDigit, others⟩ := List.forall_mem_cons.mp all
    rw [List.map_cons, readDigits, digitOf_isDigit isDigit]
    dsimp only
    rw [inductionHypothesis others, Nat.ofDigitChars_cons, Option.getD_some, mul_comm]

theorem parseInt_decimal (number : ℕ) : parseInt 10 (decimal number) = some ↑number := by
  have present : decimal number ≠ [] := mt List.map_eq_nil_iff.mp Nat.toDigits_ne_nil
  rw [parseInt_digits present (digitOf_decimal number), decimal,
    readDigits_decimal _ (fun digit => Nat.isDigit_of_mem_toDigits (by decide) (by decide)),
    Nat.ofDigitChars_ten_toDigits]
  rfl

theorem decimal_injective : Function.Injective decimal := by
  intro first second same
  have read := congrArg (parseInt 10) same
  rw [parseInt_decimal, parseInt_decimal, Option.some_inj] at read
  exact Int.ofNat.inj read

end JavaScript.Numerals
