/-
This file develops how a JSON value is written: the text of a value is one that the grammar gives
back the value for, so parsing it returns the value. Strings are written so that no half of a
pair stands alone; how a number is written is left to the caller.
-/

import AiSwitcher.Library.JsonParsing

namespace JavaScript

namespace JsonText

/-! ### Strings -/

def isHigh (unit : UInt16) : Bool := 0xD800 ≤ unit.toNat && unit.toNat < 0xDC00

def isLow (unit : UInt16) : Bool := 0xDC00 ≤ unit.toNat && unit.toNat < 0xE000

def pairChar (high low : UInt16) : Char :=
  .ofNat (0x10000 + (high.toNat - 0xD800) * 0x400 + (low.toNat - 0xDC00))

def hexChar (digit : Nat) : Char := .ofNat (if digit < 10 then 48 + digit else 87 + digit)

/-- `\uXXXX` -/
def unicodeEscape (unit : UInt16) : List Char :=
  ['\\', 'u', hexChar (unit.toNat / 4096), hexChar (unit.toNat / 256 % 16),
    hexChar (unit.toNat / 16 % 16), hexChar (unit.toNat % 16)]

/-- A code unit that is not half of a pair. -/
def quoteUnit (unit : UInt16) : List Char :=
  if unit = 0x08 then ['\\', 'b']
  else if unit = 0x09 then ['\\', 't']
  else if unit = 0x0A then ['\\', 'n']
  else if unit = 0x0C then ['\\', 'f']
  else if unit = 0x0D then ['\\', 'r']
  else if unit = 0x22 then ['\\', '"']
  else if unit = 0x5C then ['\\', '\\']
  else if unit.toNat < 0x20 || isHigh unit || isLow unit then unicodeEscape unit
  else [.ofNat unit.toNat]

def quoteUnits : Units → List Char
  | [] => []
  | [unit] => quoteUnit unit
  | first :: second :: rest =>
      if isHigh first && isLow second then pairChar first second :: quoteUnits rest
      else quoteUnit first ++ quoteUnits (second :: rest)

theorem ofNat_toNat_char {point : Nat}
    (valid : point < 0xD800 ∨ 0xDFFF < point ∧ point < 0x110000) :
    (Char.ofNat point).toNat = point := by
  have isValid : point.isValidChar := valid
  rw [Char.ofNat, dif_pos isValid]
  rfl

theorem hexValue_hexChar {digit : Nat} (small : digit < 16) :
    hexValue (hexChar digit) = some digit := by
  have all : ∀ digit < 16, hexValue (hexChar digit) = some digit := by decide
  exact all digit small

theorem hexUnit_escape (unit : UInt16) :
    hexUnit (hexChar (unit.toNat / 4096)) (hexChar (unit.toNat / 256 % 16))
      (hexChar (unit.toNat / 16 % 16)) (hexChar (unit.toNat % 16)) = some unit := by
  have bound : unit.toNat < 65536 := unit.toNat_lt
  rw [hexUnit, hexValue_hexChar (by omega), hexValue_hexChar (by omega),
    hexValue_hexChar (by omega), hexValue_hexChar (by omega)]
  have whole : unit.toNat / 4096 * 4096 + unit.toNat / 256 % 16 * 256 + unit.toNat / 16 % 16 * 16 +
      unit.toNat % 16 = unit.toNat := by omega
  refine congrArg some ?_
  rw [whole, UInt16.ofNat_toNat]

theorem isBody_quoteUnit_append (unit : UInt16) {body : List Char} {units : Units}
    (rest : IsBody body units) : IsBody (quoteUnit unit ++ body) (unit :: units) := by
  unfold quoteUnit
  split
  · next same => exact same ▸ .escape (by decide) rest
  split
  · next same => exact same ▸ .escape (by decide) rest
  split
  · next same => exact same ▸ .escape (by decide) rest
  split
  · next same => exact same ▸ .escape (by decide) rest
  split
  · next same => exact same ▸ .escape (by decide) rest
  split
  · next same => exact same ▸ .escape (by decide) rest
  split
  · next same => exact same ▸ .escape (by decide) rest
  split
  · exact .hex (hexUnit_escape unit) rest
  next notQuote notEscape special =>
  simp only [isHigh, isLow, Bool.or_eq_true, decide_eq_true_iff, Bool.and_eq_true, not_or,
    not_and, not_lt] at special
  obtain ⟨⟨printable, notHigh⟩, notLow⟩ := special
  have bound : unit.toNat < 65536 := unit.toNat_lt
  have value : (Char.ofNat unit.toNat).toNat = unit.toNat := ofNat_toNat_char (by omega)
  have notChar {char : Char} {other : UInt16} (code : char.toNat = other.toNat)
      (different : unit ≠ other) : Char.ofNat unit.toNat ≠ char := by
    intro same
    rw [same, code] at value
    exact different (UInt16.toNat_inj.mp value.symm)
  have plain : isPlain (Char.ofNat unit.toNat) = true := by
    simp only [isPlain, Bool.and_eq_true, decide_eq_true_iff, value]
    exact ⟨⟨notChar rfl notQuote, notChar rfl notEscape⟩, printable⟩
  have units : unitsOfChar (Char.ofNat unit.toNat) = [unit] := by
    rw [unitsOfChar, if_pos (by omega), value, UInt16.ofNat_toNat]
  have whole : IsBody (Char.ofNat unit.toNat :: body)
      (unitsOfChar (Char.ofNat unit.toNat) ++ _) := .plain plain rest
  rw [units] at whole
  exact whole

theorem isBody_pairChar_append {high low : UInt16} (isPair : (isHigh high && isLow low) = true)
    {body : List Char} {units : Units} (rest : IsBody body units) :
    IsBody (pairChar high low :: body) (high :: low :: units) := by
  simp only [isHigh, isLow, Bool.and_eq_true, decide_eq_true_iff] at isPair
  obtain ⟨⟨highFrom, highTo⟩, lowFrom, lowTo⟩ := isPair
  have value : (pairChar high low).toNat =
      0x10000 + (high.toNat - 0xD800) * 0x400 + (low.toNat - 0xDC00) :=
    ofNat_toNat_char (by omega)
  have notAscii (char : Char) (ascii : char.toNat < 128) : pairChar high low ≠ char := by
    intro same
    rw [same] at value
    omega
  have plain : isPlain (pairChar high low) = true := by
    simp only [isPlain, Bool.and_eq_true, decide_eq_true_iff]
    exact ⟨⟨notAscii _ (by decide), notAscii _ (by decide)⟩, by omega⟩
  have units : unitsOfChar (pairChar high low) = [high, low] := by
    rw [unitsOfChar, if_neg (by omega), value]
    have highValue : 0xD800 + (0x10000 + (high.toNat - 0xD800) * 0x400 + (low.toNat - 0xDC00) -
        0x10000) / 0x400 = high.toNat := by omega
    have lowValue : 0xDC00 + (0x10000 + (high.toNat - 0xD800) * 0x400 + (low.toNat - 0xDC00) -
        0x10000) % 0x400 = low.toNat := by omega
    rw [highValue, lowValue, UInt16.ofNat_toNat, UInt16.ofNat_toNat]
  have whole : IsBody (pairChar high low :: body) (unitsOfChar (pairChar high low) ++ _) :=
    .plain plain rest
  rw [units] at whole
  exact whole

theorem isBody_quoteUnits (units : Units) : IsBody (quoteUnits units) units := by
  induction units using quoteUnits.induct with
  | case1 => exact .nil
  | case2 unit =>
    have whole := isBody_quoteUnit_append unit IsBody.nil
    rwa [List.append_nil] at whole
  | case3 first second rest isPair inductionHypothesis =>
    rw [quoteUnits, if_pos isPair]
    exact isBody_pairChar_append isPair inductionHypothesis
  | case4 first second rest notPair inductionHypothesis =>
    rw [quoteUnits, if_neg notPair]
    exact isBody_quoteUnit_append first inductionHypothesis

/-! ### Values -/

section Writing

variable (number : List Char → Number) (write : Number → List Char)

mutual

/-- `JSON.stringify(value)` -/
def stringify : Value → List Char
  | .null => "null".toList
  | .bool true => "true".toList
  | .bool false => "false".toList
  | .num value => write value
  | .str units => '"' :: (quoteUnits units ++ ['"'])
  | .arr items => '[' :: (stringifyItems items ++ [']'])
  | .obj members => '{' :: (stringifyMembers members ++ ['}'])

def stringifyItems : List Value → List Char
  | [] => []
  | item :: items =>
      stringify item ++ if items.isEmpty then [] else ',' :: stringifyItems items

def stringifyMembers : List (Units × Value) → List Char
  | [] => []
  | (name, value) :: members =>
      '"' :: (quoteUnits name ++ '"' :: ':' :: (stringify value ++
        if members.isEmpty then [] else ',' :: stringifyMembers members))

end

/-- A number is written as a literal that denotes it. -/
def ExactNumber (value : Number) : Prop :=
  isNumberText (write value) = true ∧ number (write value) = value

mutual

/-- The numbers of a value are written exactly. -/
def Exact : Value → Prop
  | .num value => ExactNumber number write value
  | .arr items => ExactItems items
  | .obj members => ExactMembers members
  | _ => True

def ExactItems : List Value → Prop
  | [] => True
  | item :: items => Exact item ∧ ExactItems items

def ExactMembers : List (Units × Value) → Prop
  | [] => True
  | (_, value) :: members => Exact value ∧ ExactMembers members

end

mutual

/-- The text of a value denotes it. -/
theorem isValue_stringify : ∀ value : Value, Exact number write value →
    IsValue number (stringify write value) value
  | .null, _ => .null
  | .bool true, _ => .yes
  | .bool false, _ => .no
  | .num value, exact => by
      have whole : IsValue number (write value) (.num (number (write value))) := .num exact.1
      rw [exact.2] at whole
      rwa [stringify]
  | .str units, _ => by
      rw [stringify]
      exact .str (isBody_quoteUnits units)
  | .arr items, exact => by
      rw [stringify]
      by_cases empty : items = []
      · rw [empty, stringifyItems]
        exact .noItems isSpace_nil
      · exact .arr (isItems_stringify items empty (by rwa [Exact] at exact))
  | .obj members, exact => by
      rw [stringify]
      by_cases empty : members = []
      · rw [empty, stringifyMembers]
        exact .noMembers isSpace_nil
      · exact .obj (isMembers_stringify members empty (by rwa [Exact] at exact))

theorem isItems_stringify : ∀ items : List Value, items ≠ [] → ExactItems number write items →
    IsItems number (stringifyItems write items) items
  | [], nonempty, _ => absurd rfl nonempty
  | item :: items, _, exact => by
      rw [ExactItems] at exact
      have first := isValue_stringify item exact.1
      rw [stringifyItems]
      by_cases empty : items = []
      · rw [empty]
        exact .last isSpace_nil first isSpace_nil
      · rw [if_neg (by rwa [List.isEmpty_iff])]
        exact .more isSpace_nil first isSpace_nil (isItems_stringify items empty exact.2)

theorem isMembers_stringify : ∀ members : List (Units × Value), members ≠ [] →
    ExactMembers number write members →
    IsMembers number (stringifyMembers write members) members
  | [], nonempty, _ => absurd rfl nonempty
  | (name, value) :: members, _, exact => by
      rw [ExactMembers] at exact
      have first := isValue_stringify value exact.1
      rw [stringifyMembers]
      by_cases empty : members = []
      · rw [empty]
        exact .last isSpace_nil (isBody_quoteUnits name) isSpace_nil isSpace_nil first isSpace_nil
      · rw [if_neg (by rwa [List.isEmpty_iff])]
        exact .more isSpace_nil (isBody_quoteUnits name) isSpace_nil isSpace_nil first isSpace_nil
          (isMembers_stringify members empty exact.2)

end

/-- Parsing what was written returns the value. -/
theorem parse_stringify {value : Value} (exact : Exact number write value) :
    parse number (stringify write value) = some value := by
  refine parse_eq_some_iff.mpr ⟨[], stringify write value, [], isSpace_nil,
    isValue_stringify number write value exact, isSpace_nil, ?_⟩
  rw [List.append_nil, List.nil_append]

end Writing

end JsonText

end JavaScript
