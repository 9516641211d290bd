/-
This file models how a request's model is found: a scan over the bytes of the body, which gives
up where it is not sure, and the parser of the platform where it did. For every body that is a
JSON object the model found is the value of its last member of that name, so an allowlist
cannot be passed with another model than the one an upstream reads.

The scan skips bytes and the parser reads characters, so both are followed along one cut of the
bytes at the characters of ASCII that structure the text.
-/

import AiSwitcher.Library.JsonParsing
import AiSwitcher.Library.Utf8Ascii
import AiSwitcher.Gateway.Proxy.Handler

namespace AiSwitcher.Gateway.ModelScan

open JavaScript JsonText Utf8 AiSwitcher.Gateway.Proxy

/-! ### The scan -/

def isBlank (byte : UInt8) : Bool :=
  byte = 0x20 || byte = 0x0a || byte = 0x0d || byte = 0x09

def ws (bytes : Bytes) : Bytes := bytes.dropWhile isBlank

/-- Skips a string after its opening quote: the bytes before the closing quote, and those after. -/
def str : Bytes → Option (Bytes × Bytes)
  | [] => none
  | byte :: rest =>
      if byte = 0x5c then
        match rest with
        | [] => none
        | escaped :: rest => (str rest).map fun read => (byte :: escaped :: read.1, read.2)
      else if byte = 0x22 then some ([], rest)
      else (str rest).map fun read => (byte :: read.1, read.2)

/-- Skips an object or an array; the stack holds the brackets that are still to close. -/
def nested : Nat → Bytes → List UInt8 → Option Bytes
  | 0, _, _ => none
  | _ + 1, [], _ => none
  | fuel + 1, byte :: rest, stack =>
      if byte = 0x22 then (str rest).bind fun read => nested fuel read.2 stack
      else if byte = 0x7b then nested fuel rest (0x7d :: stack)
      else if byte = 0x5b then nested fuel rest (0x5d :: stack)
      else if byte = 0x7d ∨ byte = 0x5d then
        match stack with
        | [] => none
        | top :: others =>
            if top ≠ byte then none -- bracket mismatch: not JSON
            else if others = [] then some rest
            else nested fuel rest others
      else nested fuel rest stack

def endsLiteral (byte : UInt8) : Bool := byte = 0x2c || byte = 0x7d || isBlank byte

/-- Only the JSON literals and numbers are accepted. -/
def isLiteral (text : List Char) : Bool :=
  text = "true".toList || text = "false".toList || text = "null".toList || isNumberText text

/-- Skips a value. -/
def value (bytes : Bytes) : Option Bytes :=
  match ws bytes with
  | [] => none
  | byte :: rest =>
      if byte = 0x22 then (str rest).map Prod.snd
      else if byte = 0x7b ∨ byte = 0x5b then nested (rest.length + 1) (byte :: rest) []
      else if isLiteral (decode ((byte :: rest).takeWhile fun byte => !endsLiteral byte)) then
        some ((byte :: rest).dropWhile fun byte => !endsLiteral byte)
      else none

def modelBytes : Bytes := [0x6d, 0x6f, 0x64, 0x65, 0x6c]

section Scan

variable (number : List Char → Number)

/-- The model after a member, where `bytes` begin with its value; `none` if the scan gives up. -/
def modelAfter (key bytes : Bytes) (model : Option Units) : Option (Option Units) :=
  if key = modelBytes then
    if bytes.head? = some 0x22 then (parse number (decode bytes)).map Value.asString?
    else some none
  else some model

/-- The members from one of them on; `none` if the scan gives up. -/
def scanMembers : Nat → Bytes → Option Units → Option (Option Units)
  | 0, _, _ => none
  | fuel + 1, bytes, model =>
      ((expect 0x22 (ws bytes)).bind str).bind fun key =>
      -- An escaped key can spell "model" in a way no byte compare sees.
      if 0x5c ∈ key.1 then none
      else
        (expect 0x3a (ws key.2)).bind fun start =>
        (value (ws start)).bind fun rest =>
        (modelAfter number key.1 ((ws start).take ((ws start).length - rest.length)) model).bind
          fun model =>
            match expect 0x2c (ws rest) with
            | some rest => scanMembers fuel rest model
            | none => (expect 0x7d (ws rest)).bind fun rest =>
                if ws rest = [] then some model else none

/-- The model of an object; `none` if the scan gives up. -/
def scanModel (bytes : Bytes) : Option (Option Units) :=
  (expect 0x7b (ws bytes)).bind fun start =>
    match expect 0x7d (ws start) with
    | some rest => if ws rest = [] then some none else none
    | none => scanMembers number start.length start none

def modelKey : Units := codeUnits "model".toList

/-- Only a JSON object has a model. -/
def requestModel : Body → Option Units
  | .buffered bytes =>
      if bytes.head? = some 0x7b then
        match scanModel number bytes with
        | some model => model
        | none =>
            match parse number (decode bytes) with
            | some (.obj members) => (member members modelKey).bind Value.asString?
            | _ => none
      else none
  | _ => none

end Scan

/-! ### Bytes and the text they decode to -/

/-- The bytes decode to the text. -/
abbrev Decodes (bytes : Bytes) (text : List Char) : Prop := decodeFrom .start bytes = text

/-- A text that begins with a character of ASCII. -/
def AsciiHead (text : List Char) : Prop := ∀ char ∈ text.head?, char.toNat < 128

theorem asciiHead_cons {char : Char} (ascii : char.toNat < 128) (rest : List Char) :
    AsciiHead (char :: rest) := by
  intro first isFirst
  obtain rfl := Option.some.inj isFirst
  exact ascii

/-- The bytes of a text can be cut where a character of ASCII follows. -/
theorem Decodes.cut {bytes : Bytes} {before after : List Char}
    (decodes : Decodes bytes (before ++ after)) (head : AsciiHead after) :
    ∃ front back, bytes = front ++ back ∧ Decodes front before ∧ Decodes back after := by
  cases after with
  | nil => exact ⟨bytes, [], (List.append_nil _).symm, by rwa [List.append_nil] at decodes, rfl⟩
  | cons char rest =>
    obtain ⟨front, byte, back, rfl, isByte, isFront, isBack⟩ :=
      cut_ascii State.fine_start (head char rfl) decodes
    refine ⟨front, byte :: back, rfl, isFront, ?_⟩
    have ascii : byte.toNat < 128 := by rw [isByte]; exact head char rfl
    rw [Decodes, decodeFrom, step_ascii State.fine_start ascii, isBack, isByte]
    exact congrArg (· :: rest) (Char.ofNat_toNat char)

theorem Decodes.cons {bytes : Bytes} {char : Char} {text : List Char} (ascii : char.toNat < 128)
    (decodes : Decodes bytes (char :: text)) :
    ∃ rest, bytes = UInt8.ofNat char.toNat :: rest ∧ Decodes rest text :=
  cons_of_ascii ascii decodes

theorem Decodes.nil {bytes : Bytes} (decodes : Decodes bytes []) : bytes = [] :=
  eq_nil_of_decodeFrom decodes

theorem decodes_cons {char : Char} {bytes : Bytes} {text : List Char} (ascii : char.toNat < 128)
    (decodes : Decodes bytes text) : Decodes (UInt8.ofNat char.toNat :: bytes) (char :: text) := by
  have same : (UInt8.ofNat char.toNat).toNat = char.toNat := toNat_ofNat_of_ascii ascii
  rw [Decodes, decodeFrom, same, step_ascii State.fine_start ascii, decodes]
  exact congrArg (· :: text) (Char.ofNat_toNat char)

/-- The bytes of a text of ASCII are its characters. -/
theorem Decodes.eq_map {bytes : Bytes} {text : List Char}
    (ascii : ∀ char ∈ text, char.toNat < 128) (decodes : Decodes bytes text) :
    bytes = text.map fun char => UInt8.ofNat char.toNat := by
  induction text generalizing bytes with
  | nil => exact decodes.nil
  | cons char rest inductionHypothesis =>
    obtain ⟨others, rfl, isRest⟩ := decodes.cons (ascii char List.mem_cons_self)
    rw [inductionHypothesis (fun other member => ascii other (List.mem_cons_of_mem _ member))
      isRest]
    rfl

/-- Bytes that begin with ASCII have no byte order mark. -/
theorem Decodes.decode {bytes : Bytes} {text : List Char} (decodes : Decodes bytes text)
    (head : AsciiHead text) : Utf8.decode bytes = text := by
  rw [Utf8.decode, if_neg, decodes]
  intro marked
  cases text with
  | nil =>
    rw [decodes.nil] at marked
    exact absurd marked (by decide)
  | cons char rest =>
    have ascii := head char rfl
    obtain ⟨others, rfl, -⟩ := decodes.cons ascii
    have same : (0xEF : UInt8) = UInt8.ofNat char.toNat := (List.cons_prefix_cons.mp marked).1
    have value := congrArg UInt8.toNat same
    rw [toNat_ofNat_of_ascii ascii] at value
    have mark : (0xEF : UInt8).toNat = 239 := rfl
    omega

/-- A byte of a text is one of its characters if it is of ASCII. -/
theorem Decodes.mem {bytes : Bytes} {text : List Char} (decodes : Decodes bytes text) {char : Char}
    (ascii : char.toNat < 128) (member : char ∈ text) : UInt8.ofNat char.toNat ∈ bytes := by
  obtain ⟨before, after, rfl⟩ := List.append_of_mem member
  obtain ⟨front, back, rfl, -, isBack⟩ := decodes.cut (asciiHead_cons ascii after)
  obtain ⟨rest, rfl, -⟩ := isBack.cons ascii
  exact List.mem_append_right _ List.mem_cons_self

/-! ### Blanks and strings -/

theorem ascii_of_isSpace {char : Char} (blank : isSpace char = true) :
    char.toNat < 128 ∧ isBlank (UInt8.ofNat char.toNat) = true := by
  simp only [isSpace, Bool.or_eq_true, decide_eq_true_iff] at blank
  rcases blank with ((rfl | rfl) | rfl) | rfl <;> decide

theorem ws_append {front : Bytes} {space : List Char} (decodes : Decodes front space)
    (isSpace : IsSpace space) (back : Bytes) : ws (front ++ back) = ws back := by
  refine List.dropWhile_append_of_pos fun byte member => ?_
  rw [decodes.eq_map fun char member => (ascii_of_isSpace (isSpace char member)).1] at member
  obtain ⟨char, isChar, rfl⟩ := List.mem_map.mp member
  exact (ascii_of_isSpace (isSpace char isChar)).2

theorem ws_of_space {bytes : Bytes} {space : List Char} (decodes : Decodes bytes space)
    (isSpace : IsSpace space) : ws bytes = [] := by
  have whole := ws_append decodes isSpace []
  rwa [List.append_nil] at whole

theorem ws_cons {byte : UInt8} (visible : isBlank byte = false) (rest : Bytes) :
    ws (byte :: rest) = byte :: rest :=
  List.dropWhile_cons_of_neg (by rw [visible]; exact Bool.false_ne_true)

theorem ofNat_ne_of_ascii {char other : Char} (ascii : char.toNat < 128)
    (otherAscii : other.toNat < 128) (different : char ≠ other) :
    UInt8.ofNat char.toNat ≠ UInt8.ofNat other.toNat := by
  intro same
  have value := congrArg UInt8.toNat same
  rw [toNat_ofNat_of_ascii ascii, toNat_ofNat_of_ascii otherAscii] at value
  exact different (Char.ext (UInt32.toNat_inj.mp value))

theorem isBlank_of_visible {char : Char} (ascii : char.toNat < 128)
    (visible : isSpace char = false) : isBlank (UInt8.ofNat char.toNat) = false := by
  simp only [isSpace, Bool.or_eq_false_iff, decide_eq_false_iff_not] at visible
  obtain ⟨⟨⟨notSpace, notLine⟩, notReturn⟩, notTab⟩ := visible
  have space : UInt8.ofNat char.toNat ≠ 0x20 := ofNat_ne_of_ascii ascii (by decide) notSpace
  have line : UInt8.ofNat char.toNat ≠ 0x0a := ofNat_ne_of_ascii ascii (by decide) notLine
  have carriage : UInt8.ofNat char.toNat ≠ 0x0d := ofNat_ne_of_ascii ascii (by decide) notReturn
  have tab : UInt8.ofNat char.toNat ≠ 0x09 := ofNat_ne_of_ascii ascii (by decide) notTab
  simp [isBlank, space, line, carriage, tab]

theorem str_plain {byte : UInt8} (notEscape : byte ≠ 0x5c) (notQuote : byte ≠ 0x22) (rest : Bytes) :
    str (byte :: rest) = (str rest).map fun read => (byte :: read.1, read.2) := by
  rw [str.eq_def]
  dsimp only
  rw [if_neg notEscape, if_neg notQuote]

theorem str_escape (escaped : UInt8) (rest : Bytes) :
    str (0x5c :: escaped :: rest) =
      (str rest).map fun read => (0x5c :: escaped :: read.1, read.2) := by
  rw [str.eq_def]
  rfl

theorem str_quote (rest : Bytes) : str (0x22 :: rest) = some ([], rest) := by
  rw [str.eq_def]
  rfl

/-- Skipping in front of a string that is skipped so. -/
theorem str_run {run : Bytes} (high : ∀ byte ∈ run, 128 ≤ byte.toNat) {bytes content after : Bytes}
    (skips : str bytes = some (content, after)) :
    str (run ++ bytes) = some (run ++ content, after) := by
  induction run with
  | nil => exact skips
  | cons byte rest inductionHypothesis =>
    have isHigh := high byte List.mem_cons_self
    have notByte (other : UInt8) (low : other.toNat < 128) : byte ≠ other := by
      rintro rfl
      omega
    rw [List.cons_append, str_plain (notByte _ (by decide)) (notByte _ (by decide)),
      inductionHypothesis fun other member => high other (List.mem_cons_of_mem _ member)]
    rfl

theorem str_plainChar {char : Char} (ascii : char.toNat < 128) (notEscape : char ≠ '\\')
    (notQuote : char ≠ '"') {bytes content after : Bytes}
    (skips : str bytes = some (content, after)) :
    str (UInt8.ofNat char.toNat :: bytes) = some (UInt8.ofNat char.toNat :: content, after) := by
  rw [str_plain (ofNat_ne_of_ascii ascii (by decide) notEscape)
    (ofNat_ne_of_ascii ascii (by decide) notQuote), skips]
  rfl

theorem ascii_of_escapeUnit {char : Char} {unit : UInt16} (escapes : escapeUnit char = some unit) :
    char.toNat < 128 := by
  by_contra high
  have notChar (other : Char) (low : other.toNat < 128) : char ≠ other := by
    rintro rfl
    exact high low
  rw [escapeUnit, if_neg (notChar _ (by decide)), if_neg (notChar _ (by decide)),
    if_neg (notChar _ (by decide)), if_neg (notChar _ (by decide)), if_neg (notChar _ (by decide)),
    if_neg (notChar _ (by decide)), if_neg (notChar _ (by decide)),
    if_neg (notChar _ (by decide))] at escapes
  cases escapes

theorem ascii_of_hexValue {char : Char} {digit : Nat} (isHex : hexValue char = some digit) :
    char.toNat < 128 ∧ char ≠ '\\' ∧ char ≠ '"' := by
  have bounds (low high : Char) (inRange : (low ≤ char && char ≤ high) = true) :
      low.toNat ≤ char.toNat ∧ char.toNat ≤ high.toNat := by
    simp only [Bool.and_eq_true, decide_eq_true_iff] at inRange
    exact ⟨UInt32.le_iff_toNat_le.mp inRange.1, UInt32.le_iff_toNat_le.mp inRange.2⟩
  have apart (value : 48 ≤ char.toNat ∧ char.toNat ≤ 57 ∨ 97 ≤ char.toNat ∧ char.toNat ≤ 102 ∨
      65 ≤ char.toNat ∧ char.toNat ≤ 70) : char.toNat < 128 ∧ char ≠ '\\' ∧ char ≠ '"' := by
    refine ⟨by omega, ?_, ?_⟩
    · rintro rfl
      exact absurd value (by decide)
    · rintro rfl
      exact absurd value (by decide)
  rw [hexValue] at isHex
  split at isHex
  · next inRange => exact apart (.inl (bounds _ _ inRange))
  split at isHex
  · next inRange => exact apart (.inr (.inl (bounds _ _ inRange)))
  split at isHex
  · next inRange => exact apart (.inr (.inr (bounds _ _ inRange)))
  · cases isHex

theorem hexValues_of_hexUnit {first second third fourth : Char} {unit : UInt16}
    (isUnit : hexUnit first second third fourth = some unit) :
    (∃ digit, hexValue first = some digit) ∧ (∃ digit, hexValue second = some digit) ∧
      (∃ digit, hexValue third = some digit) ∧ ∃ digit, hexValue fourth = some digit := by
  simp only [hexUnit, Option.bind_eq_bind, Option.bind_eq_some_iff] at isUnit
  obtain ⟨one, isOne, two, isTwo, three, isThree, four, isFour, -⟩ := isUnit
  exact ⟨⟨one, isOne⟩, ⟨two, isTwo⟩, ⟨three, isThree⟩, four, isFour⟩

/-- A string of the grammar is skipped up to its closing quote. -/
theorem str_of_isBody {body : List Char} {units : Units} (isBody : IsBody body units)
    {content : Bytes} (decodes : Decodes content body) (after : Bytes) :
    str (content ++ 0x22 :: after) = some (content, after) := by
  induction isBody generalizing content with
  | nil =>
    rw [decodes.nil]
    exact str_quote after
  | @plain char body units isPlain _ inductionHypothesis =>
    simp only [JsonText.isPlain, Bool.and_eq_true, decide_eq_true_iff] at isPlain
    by_cases ascii : char.toNat < 128
    · obtain ⟨rest, rfl, isRest⟩ := decodes.cons ascii
      exact str_plainChar ascii isPlain.1.2 isPlain.1.1 (inductionHypothesis isRest)
    · obtain ⟨run, rest, rfl, high, isRest⟩ := run_of_not_ascii (by omega) decodes
      rw [List.append_assoc]
      exact str_run high (inductionHypothesis isRest)
  | @escape char unit body units escapes _ inductionHypothesis =>
    obtain ⟨escaped, rfl, isEscaped⟩ := decodes.cons (by decide)
    obtain ⟨rest, rfl, isRest⟩ := isEscaped.cons (ascii_of_escapeUnit escapes)
    refine (str_escape _ _).trans (congrArg (Option.map _) (inductionHypothesis isRest))
  | @hex first second third fourth unit body units escapes _ inductionHypothesis =>
    obtain ⟨⟨_, isFirst⟩, ⟨_, isSecond⟩, ⟨_, isThird⟩, _, isFourth⟩ := hexValues_of_hexUnit escapes
    obtain ⟨firstAscii, firstEscape, firstQuote⟩ := ascii_of_hexValue isFirst
    obtain ⟨secondAscii, secondEscape, secondQuote⟩ := ascii_of_hexValue isSecond
    obtain ⟨thirdAscii, thirdEscape, thirdQuote⟩ := ascii_of_hexValue isThird
    obtain ⟨fourthAscii, fourthEscape, fourthQuote⟩ := ascii_of_hexValue isFourth
    obtain ⟨afterEscape, rfl, decodesU⟩ := decodes.cons (by decide)
    obtain ⟨afterU, rfl, decodesFirst⟩ := decodesU.cons (by decide)
    obtain ⟨afterFirst, rfl, decodesSecond⟩ := decodesFirst.cons firstAscii
    obtain ⟨afterSecond, rfl, decodesThird⟩ := decodesSecond.cons secondAscii
    obtain ⟨afterThird, rfl, decodesFourth⟩ := decodesThird.cons thirdAscii
    obtain ⟨rest, rfl, isRest⟩ := decodesFourth.cons fourthAscii
    exact (str_escape _ _).trans (congrArg (Option.map _)
      (str_plainChar firstAscii firstEscape firstQuote (str_plainChar secondAscii secondEscape
        secondQuote (str_plainChar thirdAscii thirdEscape thirdQuote (str_plainChar fourthAscii
          fourthEscape fourthQuote (inductionHypothesis isRest))))))

/-! ### Objects and arrays -/

/-- Skipping `front` does not change the stack of open brackets. -/
def Skips (front : Bytes) : Prop :=
  ∀ fuel back stack, stack ≠ [] → (front ++ back).length ≤ fuel →
    ∃ left, back.length ≤ left ∧ nested fuel (front ++ back) stack = nested left back stack

/-- So does skipping any bytes of a text. -/
def Skippable (text : List Char) : Prop := ∀ front, Decodes front text → Skips front

theorem skips_nil : Skips [] := fun fuel _ _ _ enough => ⟨fuel, enough, rfl⟩

theorem Skips.append {first second : Bytes} (skips : Skips first) (others : Skips second) :
    Skips (first ++ second) := by
  intro fuel back stack opened enough
  rw [List.append_assoc] at enough ⊢
  obtain ⟨between, enoughBetween, same⟩ := skips fuel (second ++ back) stack opened enough
  obtain ⟨left, enoughLeft, sameLeft⟩ := others between back stack opened enoughBetween
  exact ⟨left, enoughLeft, same.trans sameLeft⟩

theorem Skippable.append {first second : List Char} (skippable : Skippable first)
    (others : Skippable second) (head : AsciiHead second) : Skippable (first ++ second) := by
  intro front decodes
  obtain ⟨before, after, rfl, isFirst, isSecond⟩ := decodes.cut head
  exact (skippable before isFirst).append (others after isSecond)

theorem skippable_nil : Skippable [] := by
  intro front decodes
  rw [decodes.nil]
  exact skips_nil

theorem nested_string (fuel : Nat) (rest : Bytes) (stack : List UInt8) :
    nested (fuel + 1) (0x22 :: rest) stack =
      (str rest).bind fun read => nested fuel read.2 stack := by
  rw [nested.eq_def]
  rfl

theorem nested_neutral {byte : UInt8} (notQuote : byte ≠ 0x22) (notBrace : byte ≠ 0x7b)
    (notBracket : byte ≠ 0x5b) (notClose : byte ≠ 0x7d) (notEnd : byte ≠ 0x5d) (fuel : Nat)
    (rest : Bytes) (stack : List UInt8) :
    nested (fuel + 1) (byte :: rest) stack = nested fuel rest stack := by
  rw [nested.eq_def]
  dsimp only
  rw [if_neg notQuote, if_neg notBrace, if_neg notBracket,
    if_neg fun closes => closes.elim notClose notEnd]

/-- A character that opens and closes nothing. -/
def Neutral (char : Char) : Prop :=
  char.toNat < 128 ∧ char ≠ '"' ∧ char ≠ '{' ∧ char ≠ '[' ∧ char ≠ '}' ∧ char ≠ ']'

theorem Neutral.skips {char : Char} (neutral : Neutral char) :
    Skips [UInt8.ofNat char.toNat] := by
  obtain ⟨ascii, notQuote, notBrace, notBracket, notClose, notEnd⟩ := neutral
  intro fuel back stack opened enough
  cases fuel with
  | zero => simp at enough
  | succ fuel =>
    refine ⟨fuel, by simpa using enough, ?_⟩
    exact nested_neutral (ofNat_ne_of_ascii ascii (by decide) notQuote)
      (ofNat_ne_of_ascii ascii (by decide) notBrace)
      (ofNat_ne_of_ascii ascii (by decide) notBracket)
      (ofNat_ne_of_ascii ascii (by decide) notClose)
      (ofNat_ne_of_ascii ascii (by decide) notEnd) fuel back stack

theorem skippable_cons {char : Char} (neutral : Neutral char) {rest : List Char}
    (skippable : Skippable rest) : Skippable (char :: rest) := by
  intro front decodes
  obtain ⟨others, rfl, isRest⟩ := decodes.cons neutral.1
  exact neutral.skips.append (skippable others isRest)

theorem skippable_of_neutral {text : List Char} (neutral : ∀ char ∈ text, Neutral char) :
    Skippable text := by
  induction text with
  | nil => exact skippable_nil
  | cons char rest inductionHypothesis =>
    exact skippable_cons (neutral char List.mem_cons_self)
      (inductionHypothesis fun other member => neutral other (List.mem_cons_of_mem _ member))

theorem neutral_of_isSpace {char : Char} (blank : isSpace char = true) : Neutral char := by
  simp only [isSpace, Bool.or_eq_true, decide_eq_true_iff] at blank
  unfold Neutral
  rcases blank with ((rfl | rfl) | rfl) | rfl <;> decide

theorem skippable_of_isSpace {space : List Char} (isSpace : IsSpace space) : Skippable space :=
  skippable_of_neutral fun char member => neutral_of_isSpace (isSpace char member)

theorem ascii_of_isNumberChar {char : Char} (isNumber : isNumberChar char = true) :
    char.toNat < 128 := by
  simp only [isNumberChar, isDigit, Bool.or_eq_true, Bool.and_eq_true, decide_eq_true_iff]
    at isNumber
  rcases isNumber with ((((digit | rfl) | rfl) | rfl) | rfl) | rfl
  · have high : char.toNat ≤ '9'.toNat := UInt32.le_iff_toNat_le.mp digit.2
    have nine : '9'.toNat = 57 := rfl
    omega
  all_goals decide

theorem neutral_of_isNumberChar {char : Char} (isNumber : isNumberChar char = true) :
    Neutral char := by
  refine ⟨ascii_of_isNumberChar isNumber, ?_, ?_, ?_, ?_, ?_⟩ <;>
    · rintro rfl
      exact absurd isNumber (by decide)

theorem skippable_string {body : List Char} {units : Units} (isBody : IsBody body units) :
    Skippable ('"' :: (body ++ ['"'])) := by
  intro front decodes
  obtain ⟨inside, rfl, isInside⟩ := decodes.cons (by decide)
  obtain ⟨content, last, rfl, isContent, isLast⟩ := isInside.cut (asciiHead_cons (by decide) [])
  obtain ⟨rest, rfl, isRest⟩ := isLast.cons (by decide)
  rw [isRest.nil]
  intro fuel back stack opened enough
  cases fuel with
  | zero => simp at enough
  | succ fuel =>
    have short : back.length ≤ fuel := by
      simp only [List.length_append, List.length_cons] at enough
      omega
    refine ⟨fuel, short, ?_⟩
    rw [List.cons_append, List.append_assoc]
    exact (nested_string fuel _ stack).trans
      (congrArg (Option.bind · _) (str_of_isBody isBody isContent back))

/-- What stands between an opening and the closing bracket. -/
theorem Skips.inside {body : Bytes} (skips : Skips body) {opening closing : UInt8}
    (isPair : opening = 0x7b ∧ closing = 0x7d ∨ opening = 0x5b ∧ closing = 0x5d)
    (fuel : Nat) (back : Bytes) (stack : List UInt8)
    (enough : (opening :: (body ++ closing :: back)).length ≤ fuel) :
    ∃ left, back.length ≤ left ∧ nested fuel (opening :: (body ++ closing :: back)) stack =
      if stack = [] then some back else nested left back stack := by
  cases fuel with
  | zero => simp at enough
  | succ fuel =>
    have enoughBody : (body ++ closing :: back).length ≤ fuel := by simpa using enough
    obtain ⟨between, enoughBetween, same⟩ :=
      skips fuel (closing :: back) (closing :: stack) (List.cons_ne_nil _ _) enoughBody
    cases between with
    | zero => simp at enoughBetween
    | succ left =>
      refine ⟨left, by simpa using enoughBetween, ?_⟩
      have opens : nested (fuel + 1) (opening :: (body ++ closing :: back)) stack =
          nested fuel (body ++ closing :: back) (closing :: stack) := by
        rcases isPair with ⟨rfl, rfl⟩ | ⟨rfl, rfl⟩ <;> rfl
      have closes : nested (left + 1) (closing :: back) (closing :: stack) =
          if stack = [] then some back else nested left back stack := by
        rcases isPair with ⟨rfl, rfl⟩ | ⟨rfl, rfl⟩ <;> rfl
      rw [opens, same, closes]

theorem skippable_brackets {body : List Char} (skippable : Skippable body) {opening closing : Char}
    (isPair : opening = '{' ∧ closing = '}' ∨ opening = '[' ∧ closing = ']') :
    Skippable (opening :: (body ++ [closing])) := by
  intro front decodes
  have ascii : opening.toNat < 128 ∧ closing.toNat < 128 := by
    rcases isPair with ⟨rfl, rfl⟩ | ⟨rfl, rfl⟩ <;> decide
  obtain ⟨inside, rfl, isInside⟩ := decodes.cons ascii.1
  obtain ⟨middle, last, rfl, isMiddle, isLast⟩ := isInside.cut (asciiHead_cons ascii.2 [])
  obtain ⟨rest, rfl, isRest⟩ := isLast.cons ascii.2
  rw [isRest.nil]
  intro fuel back stack opened enough
  have pair : UInt8.ofNat opening.toNat = 0x7b ∧ UInt8.ofNat closing.toNat = 0x7d ∨
      UInt8.ofNat opening.toNat = 0x5b ∧ UInt8.ofNat closing.toNat = 0x5d := by
    rcases isPair with ⟨rfl, rfl⟩ | ⟨rfl, rfl⟩
    · exact .inl ⟨by decide, by decide⟩
    · exact .inr ⟨by decide, by decide⟩
  rw [List.cons_append, List.append_assoc] at enough ⊢
  obtain ⟨left, enoughLeft, same⟩ :=
    (skippable middle isMiddle).inside pair fuel back stack enough
  exact ⟨left, enoughLeft, same.trans (if_neg opened)⟩

section Values

variable {number : List Char → Number}

theorem asciiHead_nil : AsciiHead [] := fun _ isFirst => by cases isFirst

theorem asciiHead_space {space : List Char} (isSpace : IsSpace space) : AsciiHead space := by
  cases space with
  | nil => exact asciiHead_nil
  | cons char rest =>
    exact asciiHead_cons (ascii_of_isSpace (isSpace char List.mem_cons_self)).1 rest

theorem asciiHead_append {first second : List Char} (head : AsciiHead first)
    (others : AsciiHead second) : AsciiHead (first ++ second) := by
  cases first with
  | nil => exact others
  | cons char rest => exact asciiHead_cons (head char rfl) _

theorem asciiHead_value {text : List Char} {value : Value} (isValue : IsValue number text value) :
    AsciiHead text := by
  cases isValue with
  | num isNumber =>
    obtain ⟨chars, char, rest, rfl, -⟩ := isNumberChar_of_isNumberText isNumber
    exact asciiHead_cons (ascii_of_isNumberChar (chars char List.mem_cons_self)) rest
  | null => exact asciiHead_cons (by decide) _
  | yes => exact asciiHead_cons (by decide) _
  | no => exact asciiHead_cons (by decide) _
  | str isBody => exact asciiHead_cons (by decide) _
  | noItems isSpace => exact asciiHead_cons (by decide) _
  | arr isItems => exact asciiHead_cons (by decide) _
  | noMembers isSpace => exact asciiHead_cons (by decide) _
  | obj isMembers => exact asciiHead_cons (by decide) _

theorem asciiHead_items {body : List Char} {items : List Value}
    (isItems : IsItems number body items) : AsciiHead body := by
  cases isItems with
  | last spaceBefore isValue spaceAfter =>
    exact asciiHead_append (asciiHead_space spaceBefore)
      (asciiHead_append (asciiHead_value isValue) (asciiHead_space spaceAfter))
  | more spaceBefore isValue spaceAfter others =>
    exact asciiHead_append (asciiHead_space spaceBefore) (asciiHead_append (asciiHead_value isValue)
      (asciiHead_append (asciiHead_space spaceAfter) (asciiHead_cons (by decide) _)))

theorem asciiHead_members {body : List Char} {members : List (Units × Value)}
    (isMembers : IsMembers number body members) : AsciiHead body := by
  cases isMembers with
  | last spaceBefore isKey spaceBetween isSpace isValue spaceAfter =>
    exact asciiHead_append (asciiHead_space spaceBefore) (asciiHead_cons (by decide) _)
  | more spaceBefore isKey spaceBetween isSpace isValue spaceAfter others =>
    exact asciiHead_append (asciiHead_space spaceBefore) (asciiHead_cons (by decide) _)

theorem neutral_comma : Neutral ',' := by
  unfold Neutral
  decide

theorem neutral_colon : Neutral ':' := by
  unfold Neutral
  decide

/-- A member up to its value. -/
theorem skippable_member {before key between space rest : List Char} {name : Units}
    (spaceBefore : IsSpace before) (isKey : IsBody key name) (spaceBetween : IsSpace between)
    (isSpace : IsSpace space) (others : Skippable rest) (head : AsciiHead rest) :
    Skippable (before ++ '"' :: (key ++ '"' :: (between ++ ':' :: (space ++ rest)))) := by
  have afterColon : Skippable (':' :: (space ++ rest)) :=
    skippable_cons neutral_colon ((skippable_of_isSpace isSpace).append others head)
  have afterKey : Skippable (between ++ ':' :: (space ++ rest)) :=
    (skippable_of_isSpace spaceBetween).append afterColon (asciiHead_cons (by decide) _)
  have fromKey : Skippable (('"' :: (key ++ ['"'])) ++ (between ++ ':' :: (space ++ rest))) :=
    (skippable_string isKey).append afterKey
      (asciiHead_append (asciiHead_space spaceBetween) (asciiHead_cons (by decide) _))
  have whole := (skippable_of_isSpace spaceBefore).append fromKey (asciiHead_cons (by decide) _)
  simpa only [List.cons_append, List.append_assoc, List.nil_append] using whole

theorem skippable_lastItem {before text after : List Char} {value : Value}
    (spaceBefore : IsSpace before) (isValue : IsValue number text value)
    (spaceAfter : IsSpace after) (skippable : Skippable text) :
    Skippable (before ++ (text ++ after)) :=
  (skippable_of_isSpace spaceBefore).append
    (skippable.append (skippable_of_isSpace spaceAfter) (asciiHead_space spaceAfter))
    (asciiHead_append (asciiHead_value isValue) (asciiHead_space spaceAfter))

theorem skippable_moreItems {before text after rest : List Char} {value : Value}
    (spaceBefore : IsSpace before) (isValue : IsValue number text value)
    (spaceAfter : IsSpace after) (skippable : Skippable text) (skippableRest : Skippable rest) :
    Skippable (before ++ (text ++ (after ++ ',' :: rest))) := by
  have comma : Skippable (',' :: rest) := skippable_cons neutral_comma skippableRest
  have head : AsciiHead (',' :: rest) := asciiHead_cons (by decide) rest
  exact (skippable_of_isSpace spaceBefore).append
    (skippable.append ((skippable_of_isSpace spaceAfter).append comma head)
      (asciiHead_append (asciiHead_space spaceAfter) head))
    (asciiHead_append (asciiHead_value isValue)
      (asciiHead_append (asciiHead_space spaceAfter) head))

section Member

variable {before key between space text after rest : List Char} {name : Units} {value : Value}
  (spaceBefore : IsSpace before) (isKey : IsBody key name) (spaceBetween : IsSpace between)
  (isSpace : IsSpace space) (isValue : IsValue number text value) (spaceAfter : IsSpace after)
  (skippable : Skippable text)

include spaceBefore isKey spaceBetween isSpace isValue spaceAfter skippable

theorem skippable_lastMember :
    Skippable (before ++ '"' ::
      (key ++ '"' :: (between ++ ':' :: (space ++ (text ++ after))))) :=
  skippable_member spaceBefore isKey spaceBetween isSpace
    (skippable.append (skippable_of_isSpace spaceAfter) (asciiHead_space spaceAfter))
    (asciiHead_append (asciiHead_value isValue) (asciiHead_space spaceAfter))

theorem skippable_moreMembers (skippableRest : Skippable rest) :
    Skippable (before ++ '"' ::
      (key ++ '"' :: (between ++ ':' :: (space ++ (text ++ (after ++ ',' :: rest)))))) := by
  have comma : Skippable (',' :: rest) := skippable_cons neutral_comma skippableRest
  have head : AsciiHead (',' :: rest) := asciiHead_cons (by decide) rest
  exact skippable_member spaceBefore isKey spaceBetween isSpace
    (skippable.append ((skippable_of_isSpace spaceAfter).append comma head)
      (asciiHead_append (asciiHead_space spaceAfter) head))
    (asciiHead_append (asciiHead_value isValue)
      (asciiHead_append (asciiHead_space spaceAfter) head))

end Member

instance : DecidablePred Neutral := fun char => by
  unfold Neutral
  infer_instance

/-- A property that each character of a word has. -/
theorem forall_mem_of_all {property : Char → Prop} [DecidablePred property] {word : List Char}
    (holds : (word.all fun char => property char) = true) : ∀ char ∈ word, property char :=
  fun char member => of_decide_eq_true (List.all_eq_true.mp holds char member)

theorem neutral_null : ∀ char ∈ "null".toList, Neutral char := forall_mem_of_all (by decide)

theorem neutral_true : ∀ char ∈ "true".toList, Neutral char := forall_mem_of_all (by decide)

theorem neutral_false : ∀ char ∈ "false".toList, Neutral char := forall_mem_of_all (by decide)

/-- A value of the grammar is skipped as a whole. -/
theorem skippable_value {text : List Char} {value : Value} (isValue : IsValue number text value) :
    Skippable text := by
  refine @IsValue.rec number (fun text _ _ => Skippable text) (fun body _ _ => Skippable body)
    (fun body _ _ => Skippable body) ?null ?yes ?no ?num ?str ?noItems ?arr ?noMembers ?obj
    ?lastItem ?moreItems ?lastMember ?moreMembers text value isValue
  case null => exact skippable_of_neutral neutral_null
  case yes => exact skippable_of_neutral neutral_true
  case no => exact skippable_of_neutral neutral_false
  case num =>
    intro literal isNumber
    exact skippable_of_neutral fun char member =>
      neutral_of_isNumberChar ((isNumberChar_of_isNumberText isNumber).1 char member)
  case str => exact fun isBody => skippable_string isBody
  case noItems =>
    exact fun isSpace => skippable_brackets (skippable_of_isSpace isSpace) (.inr ⟨rfl, rfl⟩)
  case arr => exact fun _ skippable => skippable_brackets skippable (.inr ⟨rfl, rfl⟩)
  case noMembers =>
    exact fun isSpace => skippable_brackets (skippable_of_isSpace isSpace) (.inl ⟨rfl, rfl⟩)
  case obj => exact fun _ skippable => skippable_brackets skippable (.inl ⟨rfl, rfl⟩)
  case lastItem =>
    exact fun spaceBefore isValue spaceAfter skippable =>
      skippable_lastItem spaceBefore isValue spaceAfter skippable
  case moreItems =>
    exact fun spaceBefore isValue spaceAfter _ skippable skippableRest =>
      skippable_moreItems spaceBefore isValue spaceAfter skippable skippableRest
  case lastMember =>
    exact fun spaceBefore isKey spaceBetween isSpace isValue spaceAfter skippable =>
      skippable_lastMember spaceBefore isKey spaceBetween isSpace isValue spaceAfter skippable
  case moreMembers =>
    exact fun spaceBefore isKey spaceBetween isSpace isValue spaceAfter _ skippable
        skippableRest =>
      skippable_moreMembers spaceBefore isKey spaceBetween isSpace isValue spaceAfter skippable
        skippableRest

theorem skippable_items {body : List Char} {items : List Value}
    (isItems : IsItems number body items) : Skippable body := by
  induction items generalizing body with
  | nil => cases isItems
  | cons item items inductionHypothesis =>
    cases isItems with
    | last spaceBefore isValue spaceAfter =>
      exact skippable_lastItem spaceBefore isValue spaceAfter (skippable_value isValue)
    | more spaceBefore isValue spaceAfter others =>
      exact skippable_moreItems spaceBefore isValue spaceAfter (skippable_value isValue)
        (inductionHypothesis others)

theorem skippable_members {body : List Char} {members : List (Units × Value)}
    (isMembers : IsMembers number body members) : Skippable body := by
  induction members generalizing body with
  | nil => cases isMembers
  | cons member members inductionHypothesis =>
    cases isMembers with
    | last spaceBefore isKey spaceBetween isSpace isValue spaceAfter =>
      exact skippable_lastMember spaceBefore isKey spaceBetween isSpace isValue spaceAfter
        (skippable_value isValue)
    | more spaceBefore isKey spaceBetween isSpace isValue spaceAfter others =>
      exact skippable_moreMembers spaceBefore isKey spaceBetween isSpace isValue spaceAfter
        (skippable_value isValue) (inductionHypothesis others)

/-! ### A member's value -/

/-- What follows ends a literal. -/
def EndsLiteral (back : Bytes) : Prop := ∀ byte ∈ back.head?, endsLiteral byte = true

theorem value_scalar {text : List Char} (neutral : ∀ char ∈ text, Neutral char)
    (goesOn : ∀ char ∈ text, endsLiteral (UInt8.ofNat char.toNat) = false)
    (literal : isLiteral text = true) {front : Bytes} (decodes : Decodes front text)
    {back : Bytes} (ends : EndsLiteral back) : value (front ++ back) = some back := by
  cases text with
  | nil => exact absurd literal (by decide)
  | cons char rest =>
    have inside : ∀ byte ∈ front, (!endsLiteral byte) = true := by
      intro byte member
      rw [decodes.eq_map fun char member => (neutral char member).1] at member
      obtain ⟨char, isChar, rfl⟩ := List.mem_map.mp member
      rw [goesOn char isChar]
      rfl
    have takes : (front ++ back).takeWhile (fun byte => !endsLiteral byte) = front := by
      rw [List.takeWhile_append_of_pos inside]
      cases back with
      | nil => exact List.append_nil front
      | cons byte back =>
        rw [List.takeWhile_cons_of_neg (by rw [ends byte rfl]; exact Bool.false_ne_true)]
        exact List.append_nil front
    have drops : (front ++ back).dropWhile (fun byte => !endsLiteral byte) = back := by
      rw [List.dropWhile_append_of_pos inside]
      cases back with
      | nil => rfl
      | cons byte back =>
        exact List.dropWhile_cons_of_neg (by rw [ends byte rfl]; exact Bool.false_ne_true)
    have isText : decode front = char :: rest :=
      decodes.decode (asciiHead_cons (neutral char List.mem_cons_self).1 rest)
    obtain ⟨ascii, notQuote, notBrace, notBracket, -⟩ := neutral char List.mem_cons_self
    obtain ⟨others, rfl, -⟩ := decodes.cons ascii
    have visible : isBlank (UInt8.ofNat char.toNat) = false := by
      have notEnd := goesOn char List.mem_cons_self
      rw [endsLiteral, Bool.or_eq_false_iff] at notEnd
      exact notEnd.2
    rw [List.cons_append] at takes drops ⊢
    rw [value, ws_cons visible]
    dsimp only
    have isNoQuote : UInt8.ofNat char.toNat ≠ 0x22 :=
      ofNat_ne_of_ascii ascii (by decide) notQuote
    have opensNothing : ¬ (UInt8.ofNat char.toNat = 0x7b ∨ UInt8.ofNat char.toNat = 0x5b) := by
      rintro (isBrace | isBracket)
      · exact ofNat_ne_of_ascii ascii (by decide) notBrace isBrace
      · exact ofNat_ne_of_ascii ascii (by decide) notBracket isBracket
    rw [if_neg isNoQuote, if_neg opensNothing, takes, isText, literal, drops]
    rfl

theorem value_brackets {body : List Char} (skippable : Skippable body) {opening closing : Char}
    (isPair : opening = '{' ∧ closing = '}' ∨ opening = '[' ∧ closing = ']') {front : Bytes}
    (decodes : Decodes front (opening :: (body ++ [closing]))) (back : Bytes) :
    value (front ++ back) = some back := by
  have ascii : opening.toNat < 128 ∧ closing.toNat < 128 := by
    rcases isPair with ⟨rfl, rfl⟩ | ⟨rfl, rfl⟩ <;> decide
  obtain ⟨inside, rfl, isInside⟩ := decodes.cons ascii.1
  obtain ⟨middle, last, rfl, isMiddle, isLast⟩ := isInside.cut (asciiHead_cons ascii.2 [])
  obtain ⟨rest, rfl, isRest⟩ := isLast.cons ascii.2
  rw [isRest.nil]
  have pair : UInt8.ofNat opening.toNat = 0x7b ∧ UInt8.ofNat closing.toNat = 0x7d ∨
      UInt8.ofNat opening.toNat = 0x5b ∧ UInt8.ofNat closing.toNat = 0x5d := by
    rcases isPair with ⟨rfl, rfl⟩ | ⟨rfl, rfl⟩
    · exact .inl ⟨by decide, by decide⟩
    · exact .inr ⟨by decide, by decide⟩
  rw [List.cons_append, List.append_assoc, List.singleton_append]
  obtain ⟨left, -, same⟩ := (skippable middle isMiddle).inside pair
    ((middle ++ UInt8.ofNat closing.toNat :: back).length + 1) back [] (by simp)
  have visible : isBlank (UInt8.ofNat opening.toNat) = false ∧
      UInt8.ofNat opening.toNat ≠ 0x22 := by
    rcases pair with ⟨isOpening, -⟩ | ⟨isOpening, -⟩ <;> rw [isOpening] <;> decide
  rw [value, ws_cons visible.1]
  dsimp only
  rw [if_neg visible.2, if_pos (pair.imp And.left And.left), same]
  rfl

theorem goesOn_of_isNumberChar {char : Char} (isNumber : isNumberChar char = true) :
    endsLiteral (UInt8.ofNat char.toNat) = false := by
  have notChar (other : Char) (ascii : other.toNat < 128) (refused : isNumberChar other = false) :
      UInt8.ofNat char.toNat ≠ UInt8.ofNat other.toNat := by
    refine ofNat_ne_of_ascii (ascii_of_isNumberChar isNumber) ascii ?_
    rintro rfl
    rw [isNumber] at refused
    cases refused
  have notComma : UInt8.ofNat char.toNat ≠ 0x2c := notChar ',' (by decide) (by decide)
  have notBrace : UInt8.ofNat char.toNat ≠ 0x7d := notChar '}' (by decide) (by decide)
  have notSpace : UInt8.ofNat char.toNat ≠ 0x20 := notChar ' ' (by decide) (by decide)
  have notLine : UInt8.ofNat char.toNat ≠ 0x0a := notChar '\n' (by decide) (by decide)
  have notReturn : UInt8.ofNat char.toNat ≠ 0x0d := notChar '\r' (by decide) (by decide)
  have notTab : UInt8.ofNat char.toNat ≠ 0x09 := notChar '\t' (by decide) (by decide)
  simp [endsLiteral, isBlank, notComma, notBrace, notSpace, notLine, notReturn, notTab]

/-- Skipping a value of the grammar. -/
theorem value_append {text : List Char} {value : Value} (isValue : IsValue number text value)
    {front : Bytes} (decodes : Decodes front text) {back : Bytes} (ends : EndsLiteral back) :
    ModelScan.value (front ++ back) = some back := by
  cases isValue with
  | null =>
    exact value_scalar neutral_null (forall_mem_of_all (by decide)) (by decide) decodes ends
  | yes =>
    exact value_scalar neutral_true (forall_mem_of_all (by decide)) (by decide) decodes ends
  | no =>
    exact value_scalar neutral_false (forall_mem_of_all (by decide)) (by decide) decodes ends
  | num isNumber =>
    have chars := (isNumberChar_of_isNumberText isNumber).1
    refine value_scalar (fun char member => neutral_of_isNumberChar (chars char member))
      (fun char member => goesOn_of_isNumberChar (chars char member)) ?_ decodes ends
    rw [isLiteral, isNumber, Bool.or_true]
  | str isBody =>
    obtain ⟨inside, rfl, isInside⟩ := decodes.cons (by decide)
    obtain ⟨content, last, rfl, isContent, isLast⟩ := isInside.cut (asciiHead_cons (by decide) [])
    obtain ⟨rest, rfl, isRest⟩ := isLast.cons (by decide)
    rw [isRest.nil, List.cons_append, List.append_assoc, ModelScan.value, ws_cons (by decide)]
    exact congrArg (Option.map Prod.snd) (str_of_isBody isBody isContent back)
  | noItems isSpace =>
    exact value_brackets (skippable_of_isSpace isSpace) (.inr ⟨rfl, rfl⟩) decodes back
  | arr isItems => exact value_brackets (skippable_items isItems) (.inr ⟨rfl, rfl⟩) decodes back
  | noMembers isSpace =>
    exact value_brackets (skippable_of_isSpace isSpace) (.inl ⟨rfl, rfl⟩) decodes back
  | obj isMembers =>
    exact value_brackets (skippable_members isMembers) (.inl ⟨rfl, rfl⟩) decodes back

end Values

/-! ### Keys -/

theorem unitsOfChar_ascii {char : Char} (ascii : char.toNat < 128) :
    unitsOfChar char = [.ofNat char.toNat] := if_pos (by omega)

/-- A unit of ASCII is a character of its own. -/
theorem eq_of_units {char other : Char} {units others : Units} (ascii : other.toNat < 128)
    (same : unitsOfChar char ++ units = .ofNat other.toNat :: others) :
    char = other ∧ units = others := by
  have value : (UInt16.ofNat other.toNat).toNat = other.toNat :=
    UInt16.toNat_ofNat_of_lt' (Nat.lt_trans ascii (by decide))
  have small := char.valid
  rw [unitsOfChar] at same
  split at same
  · next single =>
    obtain ⟨isUnit, isRest⟩ := List.cons.inj same
    have units := congrArg UInt16.toNat isUnit
    rw [value, UInt16.toNat_ofNat_of_lt' single] at units
    exact ⟨Char.ext (UInt32.toNat_inj.mp units), isRest⟩
  · next pair =>
    have isUnit := congrArg UInt16.toNat (List.cons.inj same).1
    have range : char.toNat < 0x110000 := by
      have valid : char.toNat < 0xD800 ∨ 0xDFFF < char.toNat ∧ char.toNat < 0x110000 := small
      omega
    rw [value, UInt16.toNat_ofNat_of_lt' (Nat.lt_of_lt_of_le (m := 0xDC00) (by omega) (by decide))]
      at isUnit
    omega

theorem eq_of_codeUnits {text word : List Char} (ascii : ∀ char ∈ word, char.toNat < 128)
    (same : codeUnits text = codeUnits word) : text = word := by
  induction word generalizing text with
  | nil =>
    cases text with
    | nil => rfl
    | cons char rest =>
      rw [codeUnits, List.flatMap_cons, unitsOfChar] at same
      split at same <;> cases same
  | cons letter word inductionHypothesis =>
    have isLetter := ascii letter List.mem_cons_self
    cases text with
    | nil =>
      rw [codeUnits, codeUnits, List.flatMap_cons, unitsOfChar_ascii isLetter] at same
      cases same
    | cons char rest =>
      rw [codeUnits, codeUnits, List.flatMap_cons, List.flatMap_cons, unitsOfChar_ascii isLetter]
        at same
      obtain ⟨rfl, isRest⟩ := eq_of_units isLetter same
      rw [inductionHypothesis (fun other member => ascii other (List.mem_cons_of_mem _ member))
        isRest]

theorem units_of_plain {body : List Char} {units : Units} (isBody : IsBody body units)
    (plain : '\\' ∉ body) : units = codeUnits body := by
  induction isBody with
  | nil => rfl
  | plain _ _ inductionHypothesis =>
    rw [inductionHypothesis fun member => plain (List.mem_cons_of_mem _ member)]
    rfl
  | escape => exact absurd List.mem_cons_self plain
  | hex => exact absurd List.mem_cons_self plain

/-- Without an escape, comparing the bytes of a key is comparing the key. -/
theorem key_eq_iff {content : Bytes} {key : List Char} {name : Units}
    (decodes : Decodes content key) (isKey : IsBody key name) (plain : (0x5c : UInt8) ∉ content) :
    content = modelBytes ↔ name = modelKey := by
  have isPlain : '\\' ∉ key := fun member => plain (decodes.mem (by decide) member)
  have ascii : ∀ char ∈ "model".toList, char.toNat < 128 := forall_mem_of_all (by decide)
  rw [units_of_plain isKey isPlain]
  constructor
  · rintro rfl
    have isModel : key = "model".toList := by
      rw [← decodes]
      decide
    rw [isModel]
    rfl
  · intro same
    have isModel : key = "model".toList := eq_of_codeUnits ascii same
    rw [isModel] at decodes
    rw [decodes.eq_map ascii]
    decide

theorem endsLiteral_of_space {spaces : Bytes} {space : List Char} (decodes : Decodes spaces space)
    (isSpace : IsSpace space) {byte : UInt8} (ends : endsLiteral byte = true) {rest : Bytes} :
    EndsLiteral (spaces ++ byte :: rest) := by
  intro first isFirst
  cases space with
  | nil =>
    rw [decodes.nil] at isFirst
    obtain rfl := Option.some.inj isFirst
    exact ends
  | cons char others =>
    obtain ⟨ascii, blank⟩ := ascii_of_isSpace (isSpace char List.mem_cons_self)
    obtain ⟨more, rfl, -⟩ := decodes.cons ascii
    obtain rfl := Option.some.inj isFirst
    rw [endsLiteral, blank, Bool.or_true]

/-! ### Members -/

/-- The model after some members: a later one takes the place of an earlier one. -/
def lastModel (model : Option Units) (members : List (Units × Value)) : Option Units :=
  members.foldl (fun model field => if field.1 = modelKey then field.2.asString? else model) model

theorem lastModel_eq (model : Option Units) (members : List (Units × Value)) :
    lastModel model members = ((member members modelKey).map Value.asString?).getD model := by
  induction members generalizing model with
  | nil => rfl
  | cons field rest inductionHypothesis =>
    rw [lastModel, List.foldl_cons, ← lastModel, inductionHypothesis, member, member,
      List.reverse_cons, List.lookup_append]
    cases rest.reverse.lookup modelKey with
    | some value => rfl
    | none =>
      obtain ⟨name, value⟩ := field
      by_cases same : name = modelKey
      · simp [same]
      · have different : (modelKey == name) = false := by simpa using fun equal => same equal.symm
        simp [same, List.lookup_cons, different]

section Members

variable {number : List Char → Number}

theorem parse_value {text : List Char} {value : Value} (isValue : IsValue number text value) :
    parse number text = some value :=
  parse_eq_some_iff.mpr ⟨[], text, [], isSpace_nil, isValue, isSpace_nil, by simp⟩

theorem modelAfter_eq {content front : Bytes} {key text : List Char} {name : Units} {value : Value}
    (decodesKey : Decodes content key) (isKey : IsBody key name)
    (plain : (0x5c : UInt8) ∉ content) (decodes : Decodes front text)
    (isValue : IsValue number text value) (model : Option Units) :
    modelAfter number content front model =
      some (if name = modelKey then value.asString? else model) := by
  rw [modelAfter, if_congr (key_eq_iff decodesKey isKey plain) rfl rfl]
  by_cases isModel : name = modelKey
  · rw [if_pos isModel, if_pos isModel]
    by_cases quoted : front.head? = some 0x22
    · rw [if_pos quoted, decodes.decode (asciiHead_value isValue), parse_value isValue]
      rfl
    · rw [if_neg quoted]
      cases isValue with
      | str isBody =>
        obtain ⟨rest, rfl, -⟩ := decodes.cons (by decide)
        exact absurd rfl quoted
      | _ => rfl
  · rw [if_neg isModel, if_neg isModel]

/-- One member: the scan gives up, or goes on after it with the model it names. -/
theorem scanMembers_member {before key between space text rest : List Char} {name : Units}
    {value : Value} (spaceBefore : IsSpace before) (isKey : IsBody key name)
    (spaceBetween : IsSpace between) (isSpace : IsSpace space)
    (isValue : IsValue number text value) (head : AsciiHead rest) {front : Bytes}
    (decodes : Decodes front
      (before ++ '"' :: (key ++ '"' :: (between ++ ':' :: (space ++ (text ++ rest)))))) :
    ∃ back, Decodes back rest ∧ back.length < front.length ∧
      ∀ tail fuel model, EndsLiteral (back ++ tail) →
        scanMembers number (fuel + 1) (front ++ tail) model = none ∨
        scanMembers number (fuel + 1) (front ++ tail) model =
          match expect 0x2c (ws (back ++ tail)) with
          | some rest =>
              scanMembers number fuel rest (if name = modelKey then value.asString? else model)
          | none => (expect 0x7d (ws (back ++ tail))).bind fun rest =>
              if ws rest = [] then some (if name = modelKey then value.asString? else model)
              else none := by
  obtain ⟨spaces, fromQuote, rfl, isSpaces, decodesQuote⟩ :=
    decodes.cut (asciiHead_cons (by decide) _)
  obtain ⟨fromKey, rfl, decodesKeys⟩ := decodesQuote.cons (by decide)
  obtain ⟨content, fromClose, rfl, decodesKey, decodesClose⟩ :=
    decodesKeys.cut (asciiHead_cons (by decide) _)
  obtain ⟨fromBetween, rfl, decodesBetween⟩ := decodesClose.cons (by decide)
  obtain ⟨betweens, fromColon, rfl, isBetween, decodesColon⟩ :=
    decodesBetween.cut (asciiHead_cons (by decide) _)
  obtain ⟨fromSpace, rfl, decodesSpace⟩ := decodesColon.cons (by decide)
  obtain ⟨blanks, fromText, rfl, isBlanks, decodesText⟩ :=
    decodesSpace.cut (asciiHead_append (asciiHead_value isValue) head)
  obtain ⟨middle, back, rfl, decodesMiddle, decodesBack⟩ := decodesText.cut head
  refine ⟨back, decodesBack, by simp only [List.length_append, List.length_cons]; omega,
    fun tail fuel model ends => ?_⟩
  rw [scanMembers]
  simp only [List.append_assoc, List.cons_append]
  rw [ws_append isSpaces spaceBefore, ws_cons (by decide)]
  have isQuote : expect 0x22 (UInt8.ofNat '"'.toNat :: (content ++ UInt8.ofNat '"'.toNat ::
      (betweens ++ UInt8.ofNat ':'.toNat :: (blanks ++ (middle ++ (back ++ tail)))))) =
      some (content ++ 0x22 ::
        (betweens ++ UInt8.ofNat ':'.toNat :: (blanks ++ (middle ++ (back ++ tail))))) :=
    expect_cons_self _ _
  rw [isQuote, Option.bind_some, str_of_isBody isKey decodesKey, Option.bind_some]
  dsimp only
  by_cases plain : (0x5c : UInt8) ∈ content
  · exact .inl (if_pos plain)
  right
  have visible : ws (middle ++ (back ++ tail)) = middle ++ (back ++ tail) := by
    obtain ⟨char, others, rfl, isVisible, -⟩ := isValue.begins
    have ascii := asciiHead_value isValue char rfl
    obtain ⟨bytes, rfl, -⟩ := decodesMiddle.cons ascii
    exact ws_cons (isBlank_of_visible ascii isVisible) _
  have isColon : expect 0x3a (UInt8.ofNat ':'.toNat :: (blanks ++ (middle ++ (back ++ tail)))) =
      some (blanks ++ (middle ++ (back ++ tail))) := expect_cons_self _ _
  rw [if_neg plain, ws_append isBetween spaceBetween, ws_cons (by decide), isColon,
    Option.bind_some, ws_append isBlanks isSpace, visible, value_append isValue decodesMiddle ends,
    Option.bind_some]
  have taken : (middle ++ (back ++ tail)).take
      ((middle ++ (back ++ tail)).length - (back ++ tail).length) = middle := by
    rw [List.length_append, Nat.add_sub_cancel, List.take_left]
  rw [taken, modelAfter_eq decodesKey isKey plain decodesMiddle isValue, Option.bind_some]

/-- Of the members of an object the scan finds the last model, or it gives up. -/
theorem scanMembers_eq {members : List (Units × Value)} {tail : Bytes} (blank : ws tail = []) :
    ∀ {body : List Char} {front : Bytes} {fuel : Nat} (model : Option Units),
      IsMembers number body members → Decodes front body → front.length ≤ fuel →
        scanMembers number fuel (front ++ 0x7d :: tail) model = none ∨
          scanMembers number fuel (front ++ 0x7d :: tail) model =
            some (lastModel model members) := by
  induction members with
  | nil => exact fun model isMembers => by cases isMembers
  | cons field others inductionHypothesis =>
    intro body front fuel model isMembers decodes enough
    cases isMembers with
    | @last before key between space text after name value spaceBefore isKey spaceBetween isSpace
        isValue spaceAfter =>
      obtain ⟨back, isBack, shorter, reads⟩ := scanMembers_member spaceBefore isKey spaceBetween
        isSpace isValue (asciiHead_space spaceAfter) decodes
      obtain ⟨fuel, rfl⟩ : ∃ less, fuel = less + 1 := ⟨fuel - 1, by omega⟩
      have rest : ws (back ++ 0x7d :: tail) = 0x7d :: tail := by
        rw [ws_append isBack spaceAfter, ws_cons (by decide)]
      have ends : EndsLiteral (back ++ 0x7d :: tail) := endsLiteral_of_space isBack spaceAfter rfl
      refine (reads (0x7d :: tail) fuel model ends).imp_right fun goesOn => ?_
      rw [goesOn, rest, expect_cons_of_ne (by decide), expect_cons_self]
      exact if_pos blank
    | @more before key between space text after rest name value members spaceBefore isKey
        spaceBetween isSpace isValue spaceAfter isRest =>
      obtain ⟨back, isBack, shorter, reads⟩ := scanMembers_member spaceBefore isKey spaceBetween
        isSpace isValue (asciiHead_append (asciiHead_space spaceAfter)
          (asciiHead_cons (by decide) rest)) decodes
      obtain ⟨fuel, rfl⟩ : ∃ less, fuel = less + 1 := ⟨fuel - 1, by omega⟩
      obtain ⟨spaces, fromComma, rfl, isSpaces, isComma⟩ :=
        isBack.cut (asciiHead_cons (by decide) rest)
      obtain ⟨next, rfl, isNext⟩ := isComma.cons (by decide)
      have ends : EndsLiteral (spaces ++ UInt8.ofNat ','.toNat :: next ++ 0x7d :: tail) := by
        rw [List.append_assoc]
        exact endsLiteral_of_space isSpaces spaceAfter rfl
      have comma : expect 0x2c (ws (spaces ++ UInt8.ofNat ','.toNat :: next ++ 0x7d :: tail)) =
          some (next ++ 0x7d :: tail) := by
        rw [List.append_assoc, ws_append isSpaces spaceAfter]
        exact expect_cons_self _ _
      rcases reads (0x7d :: tail) fuel model ends with gaveUp | goesOn
      · exact .inl gaveUp
      rw [goesOn, comma]
      refine inductionHypothesis _ isRest isNext ?_
      simp only [List.length_append, List.length_cons] at shorter
      omega

theorem quote_of_members {body : List Char} {members : List (Units × Value)}
    (isMembers : IsMembers number body members) :
    ∃ before rest, IsSpace before ∧ body = before ++ '"' :: rest := by
  cases isMembers with
  | last spaceBefore isKey spaceBetween isSpace isValue spaceAfter =>
    exact ⟨_, _, spaceBefore, rfl⟩
  | more spaceBefore isKey spaceBetween isSpace isValue spaceAfter others =>
    exact ⟨_, _, spaceBefore, rfl⟩

/-! ### The model of a request -/

/-- The scan of an object that begins the body, and blanks after it: its model, or the scan gives
up. -/
theorem scanModel_eq {middle after : List Char} {members : List (Units × Value)}
    (isValue : IsValue number middle (.obj members)) (spaceAfter : IsSpace after) {bytes : Bytes}
    (decodes : Decodes bytes (middle ++ after)) :
    scanModel number bytes = none ∨
      scanModel number bytes = some ((member members modelKey).bind Value.asString?) := by
  obtain ⟨front, back, rfl, isFront, isBack⟩ := decodes.cut (asciiHead_space spaceAfter)
  have blank : ws back = [] := ws_of_space isBack spaceAfter
  cases isValue with
  | @noMembers space isSpace =>
    obtain ⟨inside, rfl, isInside⟩ := isFront.cons (by decide)
    obtain ⟨spaces, last, rfl, isSpaces, isLast⟩ := isInside.cut (asciiHead_cons (by decide) [])
    obtain ⟨rest, rfl, isRest⟩ := isLast.cons (by decide)
    rw [isRest.nil]
    have closes : expect 0x7d (ws (spaces ++ [UInt8.ofNat '}'.toNat] ++ back)) = some back := by
      rw [List.append_assoc, ws_append isSpaces isSpace]
      exact expect_cons_self _ _
    right
    rw [List.cons_append, scanModel, ws_cons (by decide)]
    refine (congrArg (Option.bind · _) (expect_cons_self _ _)).trans ?_
    rw [Option.bind_some, closes]
    exact if_pos blank
  | @obj body members isMembers =>
    obtain ⟨inside, rfl, isInside⟩ := isFront.cons (by decide)
    obtain ⟨content, last, rfl, isContent, isLast⟩ := isInside.cut (asciiHead_cons (by decide) [])
    obtain ⟨rest, rfl, isRest⟩ := isLast.cons (by decide)
    rw [isRest.nil]
    have notClosed : expect 0x7d (ws (content ++ [UInt8.ofNat '}'.toNat] ++ back)) = none := by
      obtain ⟨before, rest, spaceBefore, rfl⟩ := quote_of_members isMembers
      obtain ⟨spaces, fromQuote, rfl, isSpaces, isQuote⟩ :=
        isContent.cut (asciiHead_cons (by decide) rest)
      obtain ⟨others, rfl, -⟩ := isQuote.cons (by decide)
      rw [List.append_assoc, List.append_assoc, ws_append isSpaces spaceBefore]
      exact expect_cons_of_ne (by decide) _
    have enough : content.length ≤ (content ++ [UInt8.ofNat '}'.toNat] ++ back).length := by
      simp only [List.length_append]
      omega
    have same : content ++ [UInt8.ofNat '}'.toNat] ++ back = content ++ 0x7d :: back :=
      List.append_assoc _ _ _
    have scanned := scanMembers_eq blank none isMembers isContent enough
    have model : lastModel none members = (member members modelKey).bind Value.asString? := by
      rw [lastModel_eq]
      cases member members modelKey <;> rfl
    have opens : scanModel number (UInt8.ofNat '{'.toNat ::
        (content ++ [UInt8.ofNat '}'.toNat]) ++ back) =
        scanMembers number (content ++ [UInt8.ofNat '}'.toNat] ++ back).length
          (content ++ [UInt8.ofNat '}'.toNat] ++ back) none := by
      rw [List.cons_append, scanModel, ws_cons (by decide)]
      refine (congrArg (Option.bind · _) (expect_cons_self _ _)).trans ?_
      rw [Option.bind_some, notClosed]
    rw [opens, ← model, same]
    rw [same] at scanned
    exact scanned

/-- The model of a whole body that is a JSON object. -/
theorem scanModel_of_document {bytes : Bytes} {members : List (Units × Value)}
    (isJson : parse number (decode bytes) = some (.obj members)) :
    scanModel number bytes = none ∨
      scanModel number bytes = some ((member members modelKey).bind Value.asString?) := by
  by_cases marked : byteOrderMark <+: bytes
  · obtain ⟨rest, rfl⟩ := marked
    exact .inl rfl
  · rw [decode, if_neg marked] at isJson
    obtain ⟨before, middle, after, spaceBefore, isValue, spaceAfter, same⟩ :=
      parse_eq_some_iff.mp isJson
    obtain ⟨spaces, rest, rfl, isSpaces, isRest⟩ := Decodes.cut same
      (asciiHead_append (asciiHead_value isValue) (asciiHead_space spaceAfter))
    have skipped : scanModel number (spaces ++ rest) = scanModel number rest := by
      rw [scanModel, scanModel, ws_append isSpaces spaceBefore]
    rw [skipped]
    exact scanModel_eq isValue spaceAfter isRest

/-- For every body that is a JSON object, what the scan finds is the last `model`; and the model of
the request is that string, or it has none and every application with an allowlist refuses it. -/
theorem requestModel_of_object {bytes : Bytes} {members : List (Units × Value)}
    (isJson : parse number (decode bytes) = some (.obj members)) :
    (∀ found, scanModel number bytes = some found →
      found = (member members modelKey).bind Value.asString?) ∧
    ((∃ model, requestModel number (.buffered bytes) = some model ∧
        member members modelKey = some (.str model)) ∨
      (requestModel number (.buffered bytes) = none ∧
        ∀ app used, app.settings.models ≠ [] →
          checkCaps app none used = some (403, "model not allowed for this app"))) := by
  have scanned := scanModel_of_document isJson
  refine ⟨fun found isFound => ?_, ?_⟩
  · rcases scanned with gaveUp | finds
    · rw [gaveUp] at isFound
      cases isFound
    · exact Option.some.inj (isFound.symm.trans finds)
  have refused (app : App) (used : Nat) (allowlist : app.settings.models ≠ []) :
      checkCaps app none used = some (403, "model not allowed for this app") := by
    rw [checkCaps, if_pos ⟨allowlist, by simp⟩]
  by_cases brace : bytes.head? = some 0x7b
  · have found : requestModel number (.buffered bytes) =
        (member members modelKey).bind Value.asString? := by
      rw [requestModel, if_pos brace]
      rcases scanned with gaveUp | finds
      · rw [gaveUp, isJson]
      · rw [finds]
    cases isModel : (member members modelKey).bind Value.asString? with
    | none => exact .inr ⟨found.trans isModel, refused⟩
    | some model =>
      refine .inl ⟨model, found.trans isModel, ?_⟩
      obtain ⟨value, isValue, isText⟩ := Option.bind_eq_some_iff.mp isModel
      rw [isValue]
      cases value with
      | str units => exact congrArg (fun units => some (Value.str units)) (Option.some.inj isText)
      | _ => cases isText
  · exact .inr ⟨by rw [requestModel, if_neg brace], refused⟩

end Members

/-- A body that names its model twice, and another one inside a member between them. -/
def twice : Bytes :=
  encode "\x7b\"model\":\"a\", \"x\":[\x7b\"model\":\"b\"\x7d],\"model\":\"c\"\x7d".toList

theorem requestModel_of_object_twice :
    scanModel (fun _ => .finite 0) twice = some (some (codeUnits "c".toList)) ∧
      ∃ members, parse (fun _ => .finite 0) (decode twice) = some (.obj members) ∧
        (member members modelKey).bind Value.asString? = some (codeUnits "c".toList) := by
  have scanned : scanModel (fun _ => .finite 0) twice = some (some (codeUnits "c".toList)) := by
    decide +kernel
  have isObject : ((parse (fun _ => .finite 0) (decode twice)).bind Value.asObject?).isSome = true := by
    decide +kernel
  obtain ⟨members, isMembers⟩ := Option.isSome_iff_exists.mp isObject
  obtain ⟨value, isJson, isValue⟩ := Option.bind_eq_some_iff.mp isMembers
  rw [Value.eq_obj_of_asObject? isValue] at isJson
  exact ⟨scanned, members, isJson, ((requestModel_of_object isJson).1 _ scanned).symm⟩

end AiSwitcher.Gateway.ModelScan
