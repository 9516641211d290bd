/-
This file develops JSON as text: the grammar of a value, as a relation between a text and the
value it denotes, and the parser, which finds exactly the value of the grammar. Strings are
the UTF-16 code units JavaScript holds, so an escape may denote half of a pair. What number a
literal denotes is left to the caller.
-/

import Mathlib.Data.List.TakeWhile
import AiSwitcher.Library.Json

namespace JavaScript

namespace JsonText

/-! ### Values -/

/-- A string as its UTF-16 code units. -/
abbrev Units := List UInt16

/-- A parsed value; the members of an object are kept in the order of the text, with duplicates. -/
inductive Value where
  | null
  | bool (value : Bool)
  | num (value : Number)
  | str (units : Units)
  | arr (items : List Value)
  | obj (members : List (Units × Value))

def unitsOfChar (char : Char) : Units :=
  if char.toNat < 0x10000 then [.ofNat char.toNat]
  else [.ofNat (0xD800 + (char.toNat - 0x10000) / 0x400),
    .ofNat (0xDC00 + (char.toNat - 0x10000) % 0x400)]

def codeUnits (text : List Char) : Units := text.flatMap unitsOfChar

def Value.asString? : Value → Option Units
  | .str units => some units
  | _ => none

def Value.asObject? : Value → Option (List (Units × Value))
  | .obj members => some members
  | _ => none

theorem Value.eq_obj_of_asObject? {value : Value} {members : List (Units × Value)}
    (isObject : value.asObject? = some members) : value = .obj members := by
  cases value with
  | obj others => exact congrArg Value.obj (Option.some.inj isObject)
  | _ => cases isObject

/-- `object[key]`: of members with one name the last one counts. -/
def member (members : List (Units × Value)) (key : Units) : Option Value :=
  members.reverse.lookup key

/-! ### Lexical parts -/

def isSpace (char : Char) : Bool :=
  char = ' ' || char = '\n' || char = '\r' || char = '\t'

def skipSpace (text : List Char) : List Char := text.dropWhile isSpace

def isDigit (char : Char) : Bool := '0' ≤ char && char ≤ '9'

/-- `[eE][+-]?\d+`, or nothing. -/
def isExponent : List Char → Bool
  | [] => true
  | char :: rest =>
      let digits := if rest.head? = some '+' || rest.head? = some '-' then rest.tail else rest
      (char = 'e' || char = 'E') && !digits.isEmpty && digits.all isDigit

/-- `(?:\.\d+)?(?:[eE][+-]?\d+)?` -/
def isFraction (text : List Char) : Bool :=
  if text.head? = some '.' then
    !(text.tail.takeWhile isDigit).isEmpty && isExponent (text.tail.dropWhile isDigit)
  else isExponent text

/-- `(?:0|[1-9]\d*)(?:\.\d+)?(?:[eE][+-]?\d+)?` -/
def isUnsigned (text : List Char) : Bool :=
  if text.head? = some '0' then isFraction text.tail
  else !(text.takeWhile isDigit).isEmpty && isFraction (text.dropWhile isDigit)

/-- A number literal: `-?(?:0|[1-9]\d*)(?:\.\d+)?(?:[eE][+-]?\d+)?` -/
def isNumberText (text : List Char) : Bool :=
  isUnsigned (if text.head? = some '-' then text.tail else text)

/-- A character that a number literal may have. -/
def isNumberChar (char : Char) : Bool :=
  isDigit char || char = '-' || char = '+' || char = '.' || char = 'e' || char = 'E'

def hexValue (char : Char) : Option Nat :=
  if '0' ≤ char && char ≤ '9' then some (char.toNat - 48)
  else if 'a' ≤ char && char ≤ 'f' then some (char.toNat - 87)
  else if 'A' ≤ char && char ≤ 'F' then some (char.toNat - 55)
  else none

/-- The code unit of `\uXXXX`. -/
def hexUnit (first second third fourth : Char) : Option UInt16 := do
  let first ← hexValue first
  let second ← hexValue second
  let third ← hexValue third
  let fourth ← hexValue fourth
  return .ofNat (first * 4096 + second * 256 + third * 16 + fourth)

/-- The code unit of an escape of one character. -/
def escapeUnit (char : Char) : Option UInt16 :=
  if char = '"' then some 0x22
  else if char = '\\' then some 0x5C
  else if char = '/' then some 0x2F
  else if char = 'b' then some 0x08
  else if char = 'f' then some 0x0C
  else if char = 'n' then some 0x0A
  else if char = 'r' then some 0x0D
  else if char = 't' then some 0x09
  else none

def isPlain (char : Char) : Bool := char ≠ '"' && char ≠ '\\' && 0x20 ≤ char.toNat

/-! ### The grammar -/

/-- The text between the quotes of a string. -/
inductive IsBody : List Char → Units → Prop
  | nil : IsBody [] []
  | plain {char : Char} {body : List Char} {units : Units} (isPlain : isPlain char = true)
      (rest : IsBody body units) : IsBody (char :: body) (unitsOfChar char ++ units)
  | escape {char : Char} {unit : UInt16} {body : List Char} {units : Units}
      (escapes : escapeUnit char = some unit) (rest : IsBody body units) :
      IsBody ('\\' :: char :: body) (unit :: units)
  | hex {first second third fourth : Char} {unit : UInt16} {body : List Char} {units : Units}
      (escapes : hexUnit first second third fourth = some unit) (rest : IsBody body units) :
      IsBody ('\\' :: 'u' :: first :: second :: third :: fourth :: body) (unit :: units)

/-- Any number of blanks. -/
def IsSpace (text : List Char) : Prop := ∀ char ∈ text, isSpace char = true

section Grammar

variable (number : List Char → Number)

mutual

/-- The text of a value, without blanks around it. -/
inductive IsValue : List Char → Value → Prop
  | null : IsValue "null".toList .null
  | yes : IsValue "true".toList (.bool true)
  | no : IsValue "false".toList (.bool false)
  | num {literal : List Char} (isNumber : isNumberText literal = true) :
      IsValue literal (.num (number literal))
  | str {body : List Char} {units : Units} (isBody : IsBody body units) :
      IsValue ('"' :: (body ++ ['"'])) (.str units)
  | noItems {space : List Char} (isSpace : IsSpace space) :
      IsValue ('[' :: (space ++ [']'])) (.arr [])
  | arr {body : List Char} {items : List Value} (isItems : IsItems body items) :
      IsValue ('[' :: (body ++ [']'])) (.arr items)
  | noMembers {space : List Char} (isSpace : IsSpace space) :
      IsValue ('{' :: (space ++ ['}'])) (.obj [])
  | obj {body : List Char} {members : List (Units × Value)} (isMembers : IsMembers body members) :
      IsValue ('{' :: (body ++ ['}'])) (.obj members)

inductive IsItems : List Char → List Value → Prop
  | last {before text after : List Char} {value : Value} (spaceBefore : IsSpace before)
      (isValue : IsValue text value) (spaceAfter : IsSpace after) :
      IsItems (before ++ (text ++ after)) [value]
  | more {before text after rest : List Char} {value : Value} {items : List Value}
      (spaceBefore : IsSpace before) (isValue : IsValue text value) (spaceAfter : IsSpace after)
      (others : IsItems rest items) :
      IsItems (before ++ (text ++ (after ++ ',' :: rest))) (value :: items)

inductive IsMembers : List Char → List (Units × Value) → Prop
  | last {before key between space text after : List Char} {name : Units} {value : Value}
      (spaceBefore : IsSpace before) (isKey : IsBody key name) (spaceBetween : IsSpace between)
      (isSpace : IsSpace space) (isValue : IsValue text value) (spaceAfter : IsSpace after) :
      IsMembers
        (before ++ '"' :: (key ++ '"' :: (between ++ ':' :: (space ++ (text ++ after)))))
        [(name, value)]
  | more {before key between space text after rest : List Char} {name : Units} {value : Value}
      {members : List (Units × Value)}
      (spaceBefore : IsSpace before) (isKey : IsBody key name) (spaceBetween : IsSpace between)
      (isSpace : IsSpace space) (isValue : IsValue text value) (spaceAfter : IsSpace after)
      (others : IsMembers rest members) :
      IsMembers
        (before ++ '"' ::
          (key ++ '"' :: (between ++ ':' :: (space ++ (text ++ (after ++ ',' :: rest))))))
        ((name, value) :: members)

end

/-- A whole document: a value with blanks around it. -/
def IsDocument (text : List Char) (value : Value) : Prop :=
  ∃ before middle after, IsSpace before ∧ IsValue number middle value ∧ IsSpace after ∧
    text = before ++ (middle ++ after)

end Grammar

/-! ### The parser -/

/-- The rest of a text after what it begins with. -/
def expect {Element : Type} [DecidableEq Element] (wanted : Element) :
    List Element → Option (List Element)
  | [] => none
  | first :: rest => if first = wanted then some rest else none

/-- What was read, with units in front. -/
def withUnits (units : Units) (read : Units × List Char) : Units × List Char :=
  (units ++ read.1, read.2)

/-- A string after its opening quote: its units, and the text after its closing quote. -/
def readString : List Char → Option (Units × List Char)
  | [] => none
  | char :: rest =>
      if char = '"' then some ([], rest)
      else if char = '\\' then
        match rest with
        | [] => none
        | kind :: rest =>
            if kind = 'u' then
              match rest with
              | first :: second :: third :: fourth :: rest =>
                  (hexUnit first second third fourth).bind fun unit =>
                    (readString rest).map (withUnits [unit])
              | _ => none
            else (escapeUnit kind).bind fun unit => (readString rest).map (withUnits [unit])
      else if char.toNat < 0x20 then none
      else (readString rest).map (withUnits (unitsOfChar char))

section Parser

variable (number : List Char → Number)

/-- A word or a number. -/
def readScalar (text : List Char) : Option (Value × List Char) :=
  if "null".toList.isPrefixOf text then some (.null, text.drop 4)
  else if "true".toList.isPrefixOf text then some (.bool true, text.drop 4)
  else if "false".toList.isPrefixOf text then some (.bool false, text.drop 5)
  else
    let literal := text.takeWhile isNumberChar
    if isNumberText literal then some (.num (number literal), text.dropWhile isNumberChar)
    else none

mutual

/-- The value a text begins with, and the text after it. -/
def readValue : Nat → List Char → Option (Value × List Char)
  | 0, _ => none
  | fuel + 1, text =>
      match expect '"' text with
      | some rest => (readString rest).map fun read => (.str read.1, read.2)
      | none =>
        match expect '[' text with
        | some rest =>
            match expect ']' (skipSpace rest) with
            | some after => some (.arr [], after)
            | none => (readItems fuel (skipSpace rest)).map fun read => (.arr read.1, read.2)
        | none =>
          match expect '{' text with
          | some rest =>
              match expect '}' (skipSpace rest) with
              | some after => some (.obj [], after)
              | none => (readMembers fuel (skipSpace rest)).map fun read => (.obj read.1, read.2)
          | none => readScalar number text

/-- The items of an array from one of them on, and the text after the closing bracket. -/
def readItems : Nat → List Char → Option (List Value × List Char)
  | 0, _ => none
  | fuel + 1, text =>
      (readValue fuel text).bind fun first =>
        match expect ',' (skipSpace first.2) with
        | some rest =>
            (readItems fuel (skipSpace rest)).map fun read => (first.1 :: read.1, read.2)
        | none => (expect ']' (skipSpace first.2)).map fun after => ([first.1], after)

/-- The members of an object from one of them on, and the text after the closing brace. -/
def readMembers : Nat → List Char → Option (List (Units × Value) × List Char)
  | 0, _ => none
  | fuel + 1, text =>
      ((expect '"' text).bind readString).bind fun name =>
      (expect ':' (skipSpace name.2)).bind fun start =>
      (readValue fuel (skipSpace start)).bind fun first =>
        match expect ',' (skipSpace first.2) with
        | some rest =>
            (readMembers fuel (skipSpace rest)).map fun read =>
              ((name.1, first.1) :: read.1, read.2)
        | none =>
            (expect '}' (skipSpace first.2)).map fun after => ([(name.1, first.1)], after)

end

/-- `JSON.parse(text)`, `none` where it throws. -/
def parse (text : List Char) : Option Value :=
  (readValue number text.length (skipSpace text)).bind fun read =>
    if skipSpace read.2 = [] then some read.1 else none

end Parser

end JsonText

end JavaScript
