/-
This file proves that the parser of JSON texts finds exactly the values of the grammar: what it
returns is denoted by the text it has read, and every text of the grammar is read to its end,
for the length of the text bounds the depth of the recursion.
-/

import AiSwitcher.Library.Control
import AiSwitcher.Library.JsonText

namespace JavaScript

namespace JsonText

/-! ### Lexical parts -/

section Expecting

variable {Element : Type} [DecidableEq Element] {wanted : Element}

theorem expect_eq_some {text rest : List Element} :
    expect wanted text = some rest ↔ text = wanted :: rest := by
  cases text with
  | nil => simp [expect]
  | cons first other =>
    rw [expect]
    split
    · next same => simp [same]
    · next different => simp [different]

theorem expect_cons_self (wanted : Element) (rest : List Element) :
    expect wanted (wanted :: rest) = some rest := expect_eq_some.mpr rfl

theorem expect_cons_of_ne {first : Element} (different : first ≠ wanted) (rest : List Element) :
    expect wanted (first :: rest) = none := by
  rw [expect, if_neg different]

end Expecting

theorem skipSpace_append {space : List Char} (isSpace : IsSpace space) (text : List Char) :
    skipSpace (space ++ text) = skipSpace text :=
  List.dropWhile_append_of_pos isSpace

/-- A text is blanks and then what is left of it without them. -/
theorem space_skipSpace (text : List Char) :
    ∃ space, IsSpace space ∧ text = space ++ skipSpace text :=
  ⟨text.takeWhile JsonText.isSpace, fun _ member => List.mem_takeWhile_imp member,
    (List.takeWhile_append_dropWhile).symm⟩

theorem isSpace_of_skipSpace {text : List Char} (blank : skipSpace text = []) : IsSpace text := by
  obtain ⟨space, isSpace, same⟩ := space_skipSpace text
  rw [same, blank, List.append_nil]
  exact isSpace

theorem skipSpace_of_isSpace {text : List Char} (isSpace : IsSpace text) : skipSpace text = [] := by
  have whole := skipSpace_append isSpace []
  rwa [List.append_nil] at whole

theorem skipSpace_cons {char : Char} (visible : isSpace char = false) (rest : List Char) :
    skipSpace (char :: rest) = char :: rest :=
  List.dropWhile_cons_of_neg (by rw [visible]; exact Bool.false_ne_true)

/-- A text that begins with a visible character keeps it. -/
def Visible (text : List Char) : Prop := ∃ char rest, text = char :: rest ∧ isSpace char = false

theorem Visible.skipSpace {text : List Char} (visible : Visible text) (rest : List Char) :
    skipSpace (text ++ rest) = text ++ rest := by
  obtain ⟨char, others, rfl, isVisible⟩ := visible
  exact skipSpace_cons isVisible _

/-! ### Strings -/

theorem readString_quote (rest : List Char) : readString ('"' :: rest) = some ([], rest) := by
  rw [readString.eq_def]
  rfl

theorem readString_hex (first second third fourth : Char) (rest : List Char) :
    readString ('\\' :: 'u' :: first :: second :: third :: fourth :: rest) =
      (hexUnit first second third fourth).bind fun unit =>
        (readString rest).map (withUnits [unit]) := by
  rw [readString.eq_def]
  rfl

theorem readString_escape {kind : Char} (notU : kind ≠ 'u') (rest : List Char) :
    readString ('\\' :: kind :: rest) =
      (escapeUnit kind).bind fun unit => (readString rest).map (withUnits [unit]) := by
  rw [readString.eq_def]
  dsimp only
  rw [if_neg (by decide), if_pos rfl, if_neg notU]

theorem readString_plain {char : Char} (plain : isPlain char = true) (rest : List Char) :
    readString (char :: rest) = (readString rest).map (withUnits (unitsOfChar char)) := by
  simp only [isPlain, Bool.and_eq_true, decide_eq_true_iff] at plain
  rw [readString.eq_def]
  dsimp only
  rw [if_neg plain.1.1, if_neg plain.1.2, if_neg (not_lt_of_ge plain.2)]

theorem notU_of_escapeUnit {char : Char} {unit : UInt16} (escapes : escapeUnit char = some unit) :
    char ≠ 'u' := by
  rintro rfl
  have refused : escapeUnit 'u' = none := by decide
  exact absurd (refused.symm.trans escapes) (Option.some_ne_none unit).symm

/-- The parser reads a string of the grammar up to its closing quote. -/
theorem readString_append {body : List Char} {units : Units} (isBody : IsBody body units)
    (rest : List Char) : readString (body ++ '"' :: rest) = some (units, rest) := by
  induction isBody with
  | nil => exact readString_quote rest
  | plain isPlain _ inductionHypothesis =>
    rw [List.cons_append, readString_plain isPlain, inductionHypothesis]
    rfl
  | escape escapes _ inductionHypothesis =>
    rw [List.cons_append, List.cons_append, readString_escape (notU_of_escapeUnit escapes), escapes,
      Option.bind_some, inductionHypothesis]
    rfl
  | hex escapes _ inductionHypothesis =>
    simp only [List.cons_append]
    rw [readString_hex, escapes, Option.bind_some, inductionHypothesis]
    rfl

theorem of_map_withUnits {front units : Units} {read : Option (Units × List Char)}
    {after : List Char} (found : read.map (withUnits front) = some (units, after)) :
    ∃ others, read = some (others, after) ∧ units = front ++ others := by
  obtain ⟨⟨others, rest⟩, isRead, same⟩ := Option.map_eq_some_iff.mp found
  obtain ⟨sameUnits, sameRest⟩ := Prod.ext_iff.mp same
  refine ⟨others, ?_, sameUnits.symm⟩
  rw [isRead]
  exact congrArg (fun rest => some (others, rest)) sameRest

/-- What the parser reads as a string is one of the grammar. -/
theorem isBody_of_readString {text : List Char} {units : Units} {after : List Char}
    (reads : readString text = some (units, after)) :
    ∃ body, text = body ++ '"' :: after ∧ IsBody body units := by
  induction text using readString.induct generalizing units with
  | case1 => cases reads
  | case2 rest =>
    rw [readString_quote] at reads
    cases reads
    exact ⟨[], rfl, .nil⟩
  | case3 =>
    have refused : readString ['\\'] = none := by decide
    exact absurd (refused.symm.trans reads) (Option.some_ne_none _).symm
  | case4 first second third fourth rest _ inductionHypothesis =>
    rw [readString_hex] at reads
    obtain ⟨unit, escapes, reads⟩ := Option.bind_eq_some_iff.mp reads
    obtain ⟨others, readsRest, rfl⟩ := of_map_withUnits reads
    obtain ⟨body, rfl, isBody⟩ := inductionHypothesis readsRest
    exact ⟨_, rfl, .hex escapes isBody⟩
  | case5 rest short =>
    rw [readString.eq_def] at reads
    dsimp only at reads
    rw [if_neg (by decide), if_pos rfl, if_pos rfl] at reads
    split at reads
    · next first second third fourth others => exact absurd rfl (short first second third fourth others)
    · cases reads
  | case6 kind rest notU _ inductionHypothesis =>
    rw [readString_escape notU] at reads
    obtain ⟨unit, escapes, reads⟩ := Option.bind_eq_some_iff.mp reads
    obtain ⟨others, readsRest, rfl⟩ := of_map_withUnits reads
    obtain ⟨body, rfl, isBody⟩ := inductionHypothesis readsRest
    exact ⟨_, rfl, .escape escapes isBody⟩
  | case7 char rest notQuote notEscape control =>
    rw [readString.eq_def] at reads
    dsimp only at reads
    rw [if_neg notQuote, if_neg notEscape, if_pos control] at reads
    cases reads
  | case8 char rest notQuote notEscape notControl inductionHypothesis =>
    have plain : isPlain char = true := by
      simp only [isPlain, Bool.and_eq_true, decide_eq_true_iff]
      exact ⟨⟨notQuote, notEscape⟩, le_of_not_gt notControl⟩
    rw [readString_plain plain] at reads
    obtain ⟨others, readsRest, rfl⟩ := of_map_withUnits reads
    obtain ⟨body, rfl, isBody⟩ := inductionHypothesis readsRest
    exact ⟨_, rfl, .plain plain isBody⟩

/-! ### Numbers -/

theorem isNumberChar_of_isDigit {char : Char} (digit : isDigit char = true) :
    isNumberChar char = true := by
  simp [isNumberChar, digit]

theorem isNumberChar_of_isExponent {text : List Char} (isExponent : isExponent text = true) :
    ∀ char ∈ text, isNumberChar char = true := by
  cases text with
  | nil => exact fun char member => by cases member
  | cons first rest =>
    simp only [JsonText.isExponent, Bool.and_eq_true, List.all_eq_true] at isExponent
    obtain ⟨⟨isE, -⟩, digits⟩ := isExponent
    intro char member
    rcases List.mem_cons.mp member with rfl | inRest
    · simp only [Bool.or_eq_true, decide_eq_true_iff] at isE
      rcases isE with rfl | rfl <;> decide
    · cases rest with
      | nil => cases inRest
      | cons sign others =>
        split at digits
        · next signed =>
          rcases List.mem_cons.mp inRest with rfl | inDigits
          · simp only [List.head?_cons, Option.some.injEq, Bool.or_eq_true, decide_eq_true_iff]
              at signed
            rcases signed with rfl | rfl <;> decide
          · exact isNumberChar_of_isDigit (digits char inDigits)
        · exact isNumberChar_of_isDigit (digits char inRest)

theorem isNumberChar_of_span {text : List Char}
    (rest : ∀ char ∈ text.dropWhile isDigit, isNumberChar char = true) :
    ∀ char ∈ text, isNumberChar char = true := by
  intro char member
  rw [← List.takeWhile_append_dropWhile (p := isDigit) (l := text)] at member
  rcases List.mem_append.mp member with digit | inRest
  · exact isNumberChar_of_isDigit (List.mem_takeWhile_imp digit)
  · exact rest char inRest

theorem isNumberChar_of_isFraction {text : List Char} (isFraction : isFraction text = true) :
    ∀ char ∈ text, isNumberChar char = true := by
  rw [JsonText.isFraction] at isFraction
  split at isFraction
  · next point =>
    obtain ⟨rest, rfl⟩ : ∃ rest, text = '.' :: rest := by
      cases text with
      | nil => cases point
      | cons first rest => exact ⟨rest, congrArg (· :: rest) (Option.some.inj point)⟩
    intro char member
    rcases List.mem_cons.mp member with rfl | inRest
    · decide
    · exact isNumberChar_of_span
        (isNumberChar_of_isExponent (Bool.and_eq_true_iff.mp isFraction).2) char inRest
  · exact isNumberChar_of_isExponent isFraction

/-- The characters of a number literal, and what it begins with. -/
theorem isNumberChar_of_isUnsigned {text : List Char} (isUnsigned : isUnsigned text = true) :
    (∀ char ∈ text, isNumberChar char = true) ∧
      ∃ char rest, text = char :: rest ∧ isDigit char = true := by
  cases text with
  | nil => exact absurd isUnsigned (by decide)
  | cons first rest =>
    rw [JsonText.isUnsigned] at isUnsigned
    split at isUnsigned
    · next zero =>
      obtain rfl : first = '0' := Option.some.inj zero
      refine ⟨fun char member => ?_, _, _, rfl, by decide⟩
      rcases List.mem_cons.mp member with rfl | inRest
      · decide
      · exact isNumberChar_of_isFraction isUnsigned char inRest
    · obtain ⟨some, isFraction⟩ := Bool.and_eq_true_iff.mp isUnsigned
      refine ⟨isNumberChar_of_span (isNumberChar_of_isFraction isFraction), _, _, rfl, ?_⟩
      by_contra notDigit
      rw [List.takeWhile_cons_of_neg notDigit] at some
      cases some

theorem isNumberChar_of_isNumberText {text : List Char} (isNumber : isNumberText text = true) :
    (∀ char ∈ text, isNumberChar char = true) ∧
      ∃ char rest, text = char :: rest ∧ (isDigit char = true ∨ char = '-') := by
  rw [isNumberText] at isNumber
  split at isNumber
  · next minus =>
    obtain ⟨rest, rfl⟩ : ∃ rest, text = '-' :: rest := by
      cases text with
      | nil => cases minus
      | cons first rest => exact ⟨rest, congrArg (· :: rest) (Option.some.inj minus)⟩
    refine ⟨fun char member => ?_, _, _, rfl, .inr rfl⟩
    rcases List.mem_cons.mp member with rfl | inRest
    · decide
    · exact (isNumberChar_of_isUnsigned isNumber).1 char inRest
  · obtain ⟨chars, char, rest, same, digit⟩ := isNumberChar_of_isUnsigned isNumber
    exact ⟨chars, char, rest, same, .inl digit⟩

/-! ### Scalars -/

section Parser

variable {number : List Char → Number}

/-- What stands after a value does not go on a number. -/
def EndsNumber (rest : List Char) : Prop := ∀ char ∈ rest.head?, isNumberChar char = false

theorem readScalar_number {literal : List Char} (isNumber : isNumberText literal = true)
    {rest : List Char} (ends : EndsNumber rest) :
    readScalar number (literal ++ rest) = some (.num (number literal), rest) := by
  obtain ⟨chars, first, others, rfl, begins⟩ := isNumberChar_of_isNumberText isNumber
  have takes : (first :: others ++ rest).takeWhile isNumberChar = first :: others := by
    rw [List.takeWhile_append_of_pos chars]
    cases rest with
    | nil => simp
    | cons next rest =>
      rw [List.takeWhile_cons_of_neg (by rw [ends next rfl]; exact Bool.false_ne_true)]
      exact List.append_nil _
  have drops : (first :: others ++ rest).dropWhile isNumberChar = rest := by
    rw [List.dropWhile_append_of_pos chars]
    cases rest with
    | nil => rfl
    | cons next rest =>
      exact List.dropWhile_cons_of_neg (by rw [ends next rfl]; exact Bool.false_ne_true)
  have notWord (letter : Char) (word : List Char) (isLetter : isNumberChar letter = false) :
      (letter :: word).isPrefixOf (first :: others ++ rest) = false := by
    have different : (letter == first) = false := by
      refine beq_false_of_ne fun same => ?_
      rw [same, chars first List.mem_cons_self] at isLetter
      cases isLetter
    rw [List.cons_append, List.isPrefixOf, different, Bool.false_and]
  have notNull : "null".toList.isPrefixOf (first :: others ++ rest) = false :=
    notWord 'n' _ (by decide)
  have notTrue : "true".toList.isPrefixOf (first :: others ++ rest) = false :=
    notWord 't' _ (by decide)
  have notFalse : "false".toList.isPrefixOf (first :: others ++ rest) = false :=
    notWord 'f' _ (by decide)
  rw [readScalar, notNull, notTrue, notFalse]
  dsimp only
  rw [takes, drops, isNumber]
  rfl

theorem isValue_of_readScalar {text : List Char} {value : Value} {rest : List Char}
    (reads : readScalar number text = some (value, rest)) :
    ∃ middle, text = middle ++ rest ∧ IsValue number middle value := by
  rw [readScalar] at reads
  split at reads
  · next word =>
    obtain ⟨others, rfl⟩ := List.isPrefixOf_iff_prefix.mp word
    cases reads
    exact ⟨_, rfl, .null⟩
  split at reads
  · next word =>
    obtain ⟨others, rfl⟩ := List.isPrefixOf_iff_prefix.mp word
    cases reads
    exact ⟨_, rfl, .yes⟩
  split at reads
  · next word =>
    obtain ⟨others, rfl⟩ := List.isPrefixOf_iff_prefix.mp word
    cases reads
    exact ⟨_, rfl, .no⟩
  dsimp only at reads
  split at reads
  · next isNumber =>
    cases reads
    exact ⟨_, List.takeWhile_append_dropWhile.symm, .num isNumber⟩
  · cases reads

/-! ### The parser returns what the grammar denotes -/

section Soundness

variable (fuel : Nat)

def ReadsValues (number : List Char → Number) (fuel : Nat) : Prop :=
  ∀ text value rest, readValue number fuel text = some (value, rest) →
    ∃ middle, text = middle ++ rest ∧ IsValue number middle value

def ReadsItems (number : List Char → Number) (fuel : Nat) : Prop :=
  ∀ text items rest, readItems number fuel text = some (items, rest) →
    ∃ middle, text = middle ++ ']' :: rest ∧ IsItems number middle items

def ReadsMembers (number : List Char → Number) (fuel : Nat) : Prop :=
  ∀ text members rest, readMembers number fuel text = some (members, rest) →
    ∃ middle, text = middle ++ '}' :: rest ∧ IsMembers number middle members

variable {fuel}

theorem isSpace_nil : IsSpace [] := fun _ member => by cases member

theorem IsItems.space_append {space body : List Char} {items : List Value}
    (isSpace : IsSpace space) (isItems : IsItems number body items) :
    IsItems number (space ++ body) items := by
  cases isItems with
  | @last before text after value spaceBefore isValue spaceAfter =>
    rw [← List.append_assoc]
    exact .last (fun char member => (List.mem_append.mp member).elim (isSpace char)
      (spaceBefore char)) isValue spaceAfter
  | @more before text after rest value items spaceBefore isValue spaceAfter others =>
    rw [← List.append_assoc]
    exact .more (fun char member => (List.mem_append.mp member).elim (isSpace char)
      (spaceBefore char)) isValue spaceAfter others

theorem IsMembers.space_append {space body : List Char} {members : List (Units × Value)}
    (isSpace : IsSpace space) (isMembers : IsMembers number body members) :
    IsMembers number (space ++ body) members := by
  cases isMembers with
  | last spaceBefore isKey spaceBetween isSpaceValue isValue spaceAfter =>
    rw [← List.append_assoc]
    exact .last (fun char member => (List.mem_append.mp member).elim (isSpace char)
      (spaceBefore char)) isKey spaceBetween isSpaceValue isValue spaceAfter
  | more spaceBefore isKey spaceBetween isSpaceValue isValue spaceAfter others =>
    rw [← List.append_assoc]
    exact .more (fun char member => (List.mem_append.mp member).elim (isSpace char)
      (spaceBefore char)) isKey spaceBetween isSpaceValue isValue spaceAfter others

theorem readsValues_succ (items : ReadsItems number fuel) (members : ReadsMembers number fuel) :
    ReadsValues number (fuel + 1) := by
  intro text value rest reads
  rw [readValue] at reads
  cases quote : expect '"' text with
  | some start =>
    rw [quote] at reads
    obtain ⟨⟨units, after⟩, isRead, same⟩ := Option.map_eq_some_iff.mp reads
    cases same
    obtain ⟨body, rfl, isBody⟩ := isBody_of_readString isRead
    exact ⟨'"' :: (body ++ ['"']), by simpa using expect_eq_some.mp quote, .str isBody⟩
  | none =>
  rw [quote] at reads
  dsimp only at reads
  cases bracket : expect '[' text with
  | some start =>
    rw [bracket] at reads
    obtain ⟨space, isSpace, same⟩ := space_skipSpace start
    dsimp only at reads
    cases closes : expect ']' (skipSpace start) with
    | some after =>
      rw [closes] at reads
      cases reads
      refine ⟨'[' :: (space ++ [']']), ?_, .noItems isSpace⟩
      rw [expect_eq_some.mp bracket, same, expect_eq_some.mp closes]
      simp
    | none =>
      rw [closes] at reads
      obtain ⟨⟨found, after⟩, isRead, isSame⟩ := Option.map_eq_some_iff.mp reads
      cases isSame
      obtain ⟨middle, split, isItems⟩ := items _ _ _ isRead
      refine ⟨'[' :: (space ++ middle ++ [']']), ?_, .arr (isItems.space_append isSpace)⟩
      rw [expect_eq_some.mp bracket, same, split]
      simp
  | none =>
  rw [bracket] at reads
  dsimp only at reads
  cases brace : expect '{' text with
  | some start =>
    rw [brace] at reads
    obtain ⟨space, isSpace, same⟩ := space_skipSpace start
    dsimp only at reads
    cases closes : expect '}' (skipSpace start) with
    | some after =>
      rw [closes] at reads
      cases reads
      refine ⟨'{' :: (space ++ ['}']), ?_, .noMembers isSpace⟩
      rw [expect_eq_some.mp brace, same, expect_eq_some.mp closes]
      simp
    | none =>
      rw [closes] at reads
      obtain ⟨⟨found, after⟩, isRead, isSame⟩ := Option.map_eq_some_iff.mp reads
      cases isSame
      obtain ⟨middle, split, isMembers⟩ := members _ _ _ isRead
      refine ⟨'{' :: (space ++ middle ++ ['}']), ?_, .obj (isMembers.space_append isSpace)⟩
      rw [expect_eq_some.mp brace, same, split]
      simp
  | none =>
    rw [brace] at reads
    exact isValue_of_readScalar reads

theorem readsItems_succ (values : ReadsValues number fuel) (items : ReadsItems number fuel) :
    ReadsItems number (fuel + 1) := by
  intro text found rest reads
  rw [readItems] at reads
  obtain ⟨⟨value, after⟩, isRead, goesOn⟩ := Option.bind_eq_some_iff.mp reads
  obtain ⟨middle, rfl, isValue⟩ := values _ _ _ isRead
  obtain ⟨space, isSpace, same⟩ := space_skipSpace after
  dsimp only at goesOn
  cases comma : expect ',' (skipSpace after) with
  | some start =>
    rw [comma] at goesOn
    obtain ⟨⟨others, last⟩, isReadRest, isSame⟩ := Option.map_eq_some_iff.mp goesOn
    cases isSame
    obtain ⟨spaceNext, isSpaceNext, sameNext⟩ := space_skipSpace start
    obtain ⟨body, split, isItems⟩ := items _ _ _ isReadRest
    refine ⟨[] ++ (middle ++ (space ++ ',' :: (spaceNext ++ body))), ?_,
      .more isSpace_nil isValue isSpace (isItems.space_append isSpaceNext)⟩
    rw [same, expect_eq_some.mp comma, sameNext, split]
    simp
  | none =>
    rw [comma] at goesOn
    obtain ⟨last, closes, isSame⟩ := Option.map_eq_some_iff.mp goesOn
    cases isSame
    refine ⟨[] ++ (middle ++ space), ?_, .last isSpace_nil isValue isSpace⟩
    rw [same, expect_eq_some.mp closes]
    simp

theorem readsMembers_succ (values : ReadsValues number fuel) (members : ReadsMembers number fuel) :
    ReadsMembers number (fuel + 1) := by
  intro text found rest reads
  rw [readMembers] at reads
  obtain ⟨⟨name, afterName⟩, isName, reads⟩ := Option.bind_eq_some_iff.mp reads
  obtain ⟨start, quote, isReadName⟩ := Option.bind_eq_some_iff.mp isName
  obtain ⟨key, rfl, isKey⟩ := isBody_of_readString isReadName
  obtain ⟨colon, isColon, reads⟩ := Option.bind_eq_some_iff.mp reads
  obtain ⟨between, spaceBetween, sameBetween⟩ := space_skipSpace afterName
  obtain ⟨spaceValue, isSpaceValue, sameColon⟩ := space_skipSpace colon
  obtain ⟨⟨value, after⟩, isRead, reads⟩ := Option.bind_eq_some_iff.mp reads
  obtain ⟨middle, split, isValue⟩ := values _ _ _ isRead
  obtain ⟨space, isSpace, same⟩ := space_skipSpace after
  have begins : text = '"' :: (key ++ '"' :: (between ++ ':' :: (spaceValue ++
      (middle ++ (space ++ skipSpace after))))) := by
    rw [expect_eq_some.mp quote, sameBetween, expect_eq_some.mp isColon, sameColon, split, ← same]
  dsimp only at reads
  cases comma : expect ',' (skipSpace after) with
  | some next =>
    rw [comma] at reads
    obtain ⟨⟨others, last⟩, isReadRest, isSame⟩ := Option.map_eq_some_iff.mp reads
    cases isSame
    obtain ⟨spaceNext, isSpaceNext, sameNext⟩ := space_skipSpace next
    obtain ⟨body, splitRest, isMembers⟩ := members _ _ _ isReadRest
    refine ⟨[] ++ '"' :: (key ++ '"' :: (between ++ ':' :: (spaceValue ++ (middle ++
        (space ++ ',' :: (spaceNext ++ body)))))), ?_,
      .more isSpace_nil isKey spaceBetween isSpaceValue isValue isSpace
        (isMembers.space_append isSpaceNext)⟩
    rw [begins, expect_eq_some.mp comma, sameNext, splitRest]
    simp
  | none =>
    rw [comma] at reads
    obtain ⟨last, closes, isSame⟩ := Option.map_eq_some_iff.mp reads
    cases isSame
    refine ⟨[] ++ '"' :: (key ++ '"' :: (between ++ ':' :: (spaceValue ++ (middle ++ space)))), ?_,
      .last isSpace_nil isKey spaceBetween isSpaceValue isValue isSpace⟩
    rw [begins, expect_eq_some.mp closes]
    simp

theorem reads (fuel : Nat) :
    ReadsValues number fuel ∧ ReadsItems number fuel ∧ ReadsMembers number fuel := by
  induction fuel with
  | zero =>
    refine ⟨fun text value rest found => ?_, fun text items rest found => ?_,
      fun text members rest found => ?_⟩
    · rw [readValue] at found
      cases found
    · rw [readItems] at found
      cases found
    · rw [readMembers] at found
      cases found
  | succ fuel inductionHypothesis =>
    obtain ⟨values, items, members⟩ := inductionHypothesis
    exact ⟨readsValues_succ items members, readsItems_succ values items,
      readsMembers_succ values members⟩

/-- A text that the parser takes denotes the value it returns. -/
theorem isDocument_of_parse {text : List Char} {value : Value}
    (parses : parse number text = some value) : IsDocument number text value := by
  obtain ⟨⟨found, rest⟩, isRead, ends⟩ := Option.bind_eq_some_iff.mp parses
  obtain ⟨before, spaceBefore, same⟩ := space_skipSpace text
  obtain ⟨middle, split, isValue⟩ := (reads _).1 _ _ _ isRead
  dsimp only at ends
  by_cases blank : skipSpace rest = []
  · rw [if_pos blank] at ends
    cases ends
    exact ⟨before, middle, rest, spaceBefore, isValue, isSpace_of_skipSpace blank, by
      rw [← split, ← same]⟩
  · rw [if_neg blank] at ends
    cases ends

end Soundness

/-! ### The parser reads every text of the grammar -/

section Completeness

variable {fuel : Nat}

theorem visible_of_digit {char : Char} (begins : isDigit char = true ∨ char = '-') :
    isSpace char = false ∧ char ≠ '"' ∧ char ≠ '[' ∧ char ≠ '{' ∧ char ≠ ']' := by
  have notDigit (other : Char) (refused : isNumberChar other = false) : char ≠ other := by
    rintro rfl
    rcases begins with digit | rfl
    · rw [isNumberChar_of_isDigit digit] at refused
      cases refused
    · exact absurd refused (by decide)
  refine ⟨?_, notDigit _ (by decide), notDigit _ (by decide), notDigit _ (by decide),
    notDigit _ (by decide)⟩
  have blank : char ≠ ' ' ∧ char ≠ '\n' ∧ char ≠ '\r' ∧ char ≠ '\t' :=
    ⟨notDigit _ (by decide), notDigit _ (by decide), notDigit _ (by decide),
      notDigit _ (by decide)⟩
  simp [isSpace, blank.1, blank.2.1, blank.2.2.1, blank.2.2.2]

theorem IsValue.begins {text : List Char} {value : Value} (isValue : IsValue number text value) :
    ∃ char rest, text = char :: rest ∧ isSpace char = false ∧ char ≠ ']' := by
  cases isValue with
  | null => exact ⟨'n', _, rfl, by decide, by decide⟩
  | yes => exact ⟨'t', _, rfl, by decide, by decide⟩
  | no => exact ⟨'f', _, rfl, by decide, by decide⟩
  | num isNumber =>
    obtain ⟨-, char, rest, same, begins⟩ := isNumberChar_of_isNumberText isNumber
    obtain ⟨visible, -, -, -, notBracket⟩ := visible_of_digit begins
    exact ⟨char, rest, same, visible, notBracket⟩
  | str isBody => exact ⟨'"', _, rfl, by decide, by decide⟩
  | noItems isSpace => exact ⟨'[', _, rfl, by decide, by decide⟩
  | arr isItems => exact ⟨'[', _, rfl, by decide, by decide⟩
  | noMembers isSpace => exact ⟨'{', _, rfl, by decide, by decide⟩
  | obj isMembers => exact ⟨'{', _, rfl, by decide, by decide⟩

theorem IsValue.visible {text : List Char} {value : Value} (isValue : IsValue number text value) :
    Visible text := by
  obtain ⟨char, rest, same, visible, -⟩ := isValue.begins
  exact ⟨char, rest, same, visible⟩

theorem endsNumber_space_append {space rest : List Char} (isSpace : IsSpace space)
    (ends : EndsNumber rest) : EndsNumber (space ++ rest) := by
  cases space with
  | nil => exact ends
  | cons char others =>
    intro first isFirst
    obtain rfl := Option.some.inj isFirst
    have blank := isSpace char List.mem_cons_self
    simp only [JsonText.isSpace, Bool.or_eq_true, decide_eq_true_iff] at blank
    rcases blank with ((rfl | rfl) | rfl) | rfl <;> decide

theorem endsNumber_cons {char : Char} (refused : isNumberChar char = false) (rest : List Char) :
    EndsNumber (char :: rest) := by
  intro first isFirst
  obtain rfl := Option.some.inj isFirst
  exact refused

def TakesValues (number : List Char → Number) (fuel : Nat) : Prop :=
  ∀ text value, IsValue number text value → text.length ≤ fuel →
    ∀ rest, EndsNumber rest → readValue number fuel (text ++ rest) = some (value, rest)

def TakesItems (number : List Char → Number) (fuel : Nat) : Prop :=
  ∀ body items, IsItems number body items → body.length < fuel →
    ∀ rest, readItems number fuel (skipSpace (body ++ ']' :: rest)) = some (items, rest)

def TakesMembers (number : List Char → Number) (fuel : Nat) : Prop :=
  ∀ body members, IsMembers number body members → body.length < fuel →
    ∀ rest, readMembers number fuel (skipSpace (body ++ '}' :: rest)) = some (members, rest)

theorem IsItems.not_closed {body : List Char} {items : List Value}
    (isItems : IsItems number body items) (rest : List Char) :
    expect ']' (skipSpace (body ++ rest)) = none := by
  have opens {before text after : List Char} {value : Value} (spaceBefore : IsSpace before)
      (isValue : IsValue number text value) :
      expect ']' (skipSpace (before ++ (text ++ after))) = none := by
    rw [skipSpace_append spaceBefore, isValue.visible.skipSpace]
    obtain ⟨char, others, rfl, -, notBracket⟩ := isValue.begins
    exact expect_cons_of_ne notBracket _
  cases isItems with
  | last spaceBefore isValue spaceAfter =>
    rw [List.append_assoc, List.append_assoc]
    exact opens spaceBefore isValue
  | more spaceBefore isValue spaceAfter others =>
    rw [List.append_assoc, List.append_assoc]
    exact opens spaceBefore isValue

theorem IsMembers.not_closed {body : List Char} {members : List (Units × Value)}
    (isMembers : IsMembers number body members) (rest : List Char) :
    expect '}' (skipSpace (body ++ rest)) = none := by
  have opens {before after : List Char} (spaceBefore : IsSpace before) :
      expect '}' (skipSpace (before ++ '"' :: after)) = none := by
    rw [skipSpace_append spaceBefore, skipSpace_cons (by decide)]
    exact expect_cons_of_ne (by decide) _
  cases isMembers with
  | last spaceBefore isKey spaceBetween isSpace isValue spaceAfter =>
    rw [List.append_assoc]
    exact opens spaceBefore
  | more spaceBefore isKey spaceBetween isSpace isValue spaceAfter others =>
    rw [List.append_assoc]
    exact opens spaceBefore

theorem takesValues_succ (items : TakesItems number fuel) (members : TakesMembers number fuel) :
    TakesValues number (fuel + 1) := by
  intro text value isValue short rest ends
  have scalar {letter : Char} {word : List Char} {value : Value}
      (notQuote : letter ≠ '"') (notBracket : letter ≠ '[') (notBrace : letter ≠ '{')
      (reads : readScalar number (letter :: word ++ rest) = some (value, rest)) :
      readValue number (fuel + 1) (letter :: word ++ rest) = some (value, rest) := by
    rw [readValue]
    simp only [List.cons_append, expect_cons_of_ne notQuote, expect_cons_of_ne notBracket,
      expect_cons_of_ne notBrace] at reads ⊢
    exact reads
  cases isValue with
  | null => exact scalar (by decide) (by decide) (by decide) rfl
  | yes => exact scalar (by decide) (by decide) (by decide) rfl
  | no => exact scalar (by decide) (by decide) (by decide) rfl
  | num isNumber =>
    have reads : readScalar number (text ++ rest) = some (.num (number text), rest) :=
      readScalar_number isNumber ends
    obtain ⟨-, first, others, rfl, begins⟩ := isNumberChar_of_isNumberText isNumber
    obtain ⟨-, notQuote, notBracket, notBrace, -⟩ := visible_of_digit begins
    exact scalar notQuote notBracket notBrace reads
  | @str body units isBody =>
    have read := readString_append isBody rest
    rw [readValue, List.cons_append, expect_cons_self, List.append_assoc]
    exact congrArg (Option.map fun read : Units × List Char => (Value.str read.1, read.2)) read
  | @noItems space isSpace =>
    rw [readValue, List.cons_append, expect_cons_of_ne (by decide), expect_cons_self,
      List.append_assoc]
    dsimp only
    rw [skipSpace_append isSpace, List.singleton_append, skipSpace_cons (by decide),
      expect_cons_self]
  | @arr body found isItems =>
    have shortBody : body.length < fuel := by
      rw [List.length_cons, List.length_append, List.length_singleton] at short
      omega
    rw [readValue, List.cons_append, expect_cons_of_ne (by decide), expect_cons_self,
      List.append_assoc]
    dsimp only
    rw [isItems.not_closed, List.singleton_append, items body found isItems shortBody rest]
    rfl
  | @noMembers space isSpace =>
    rw [readValue, List.cons_append, expect_cons_of_ne (by decide), expect_cons_of_ne (by decide),
      expect_cons_self, List.append_assoc]
    dsimp only
    rw [skipSpace_append isSpace, List.singleton_append, skipSpace_cons (by decide),
      expect_cons_self]
  | @obj body found isMembers =>
    have shortBody : body.length < fuel := by
      rw [List.length_cons, List.length_append, List.length_singleton] at short
      omega
    rw [readValue, List.cons_append, expect_cons_of_ne (by decide), expect_cons_of_ne (by decide),
      expect_cons_self, List.append_assoc]
    dsimp only
    rw [isMembers.not_closed, List.singleton_append, members body found isMembers shortBody rest]
    rfl

theorem takesItems_succ (values : TakesValues number fuel) (items : TakesItems number fuel) :
    TakesItems number (fuel + 1) := by
  intro body found isItems short rest
  cases isItems with
  | @last before text after value spaceBefore isValue spaceAfter =>
    simp only [List.length_append] at short
    have read := values text value isValue (by omega) (after ++ ']' :: rest)
      (endsNumber_space_append spaceAfter (endsNumber_cons (by decide) rest))
    rw [List.append_assoc, List.append_assoc, skipSpace_append spaceBefore,
      isValue.visible.skipSpace, readItems, read, Option.bind_some]
    dsimp only
    rw [skipSpace_append spaceAfter, skipSpace_cons (by decide), expect_cons_of_ne (by decide),
      expect_cons_self]
    rfl
  | @more before text after others value restItems spaceBefore isValue spaceAfter isRest =>
    simp only [List.length_append, List.length_cons] at short
    have read := values text value isValue (by omega) (after ++ ',' :: (others ++ ']' :: rest))
      (endsNumber_space_append spaceAfter (endsNumber_cons (by decide) _))
    have readRest := items others restItems isRest (by omega) rest
    rw [List.append_assoc, List.append_assoc, List.append_assoc, List.cons_append,
      skipSpace_append spaceBefore, isValue.visible.skipSpace, readItems, read, Option.bind_some]
    dsimp only
    rw [skipSpace_append spaceAfter, skipSpace_cons (by decide), expect_cons_self]
    dsimp only
    rw [readRest]
    rfl

theorem takesMembers_succ (values : TakesValues number fuel) (members : TakesMembers number fuel) :
    TakesMembers number (fuel + 1) := by
  intro body found isMembers short rest
  cases isMembers with
  | @last before key between space text after name value spaceBefore isKey spaceBetween isSpace
      isValue spaceAfter =>
    simp only [List.length_append, List.length_cons] at short
    have read := values text value isValue (by omega) (after ++ '}' :: rest)
      (endsNumber_space_append spaceAfter (endsNumber_cons (by decide) rest))
    simp only [List.append_assoc, List.cons_append]
    rw [skipSpace_append spaceBefore, skipSpace_cons (by decide), readMembers, expect_cons_self,
      Option.bind_some, readString_append isKey, Option.bind_some]
    dsimp only
    rw [skipSpace_append spaceBetween, skipSpace_cons (by decide), expect_cons_self,
      Option.bind_some, skipSpace_append isSpace, isValue.visible.skipSpace, read,
      Option.bind_some]
    dsimp only
    rw [skipSpace_append spaceAfter, skipSpace_cons (by decide), expect_cons_of_ne (by decide),
      expect_cons_self]
    rfl
  | @more before key between space text after others name value restMembers spaceBefore isKey
      spaceBetween isSpace isValue spaceAfter isRest =>
    simp only [List.length_append, List.length_cons] at short
    have read := values text value isValue (by omega) (after ++ ',' :: (others ++ '}' :: rest))
      (endsNumber_space_append spaceAfter (endsNumber_cons (by decide) _))
    have readRest := members others restMembers isRest (by omega) rest
    simp only [List.append_assoc, List.cons_append]
    rw [skipSpace_append spaceBefore, skipSpace_cons (by decide), readMembers, expect_cons_self,
      Option.bind_some, readString_append isKey, Option.bind_some]
    dsimp only
    rw [skipSpace_append spaceBetween, skipSpace_cons (by decide), expect_cons_self,
      Option.bind_some, skipSpace_append isSpace, isValue.visible.skipSpace, read,
      Option.bind_some]
    dsimp only
    rw [skipSpace_append spaceAfter, skipSpace_cons (by decide), expect_cons_self]
    dsimp only
    rw [readRest]
    rfl

theorem takes (fuel : Nat) :
    TakesValues number fuel ∧ TakesItems number fuel ∧ TakesMembers number fuel := by
  induction fuel with
  | zero =>
    refine ⟨fun text value isValue short => ?_, fun body items _ short => absurd short (by omega),
      fun body members _ short => absurd short (by omega)⟩
    obtain ⟨char, rest, rfl, -⟩ := isValue.begins
    exact absurd short (by simp)
  | succ fuel inductionHypothesis =>
    obtain ⟨values, items, members⟩ := inductionHypothesis
    exact ⟨takesValues_succ items members, takesItems_succ values items,
      takesMembers_succ values members⟩

/-- The parser returns the value that the grammar gives a text, and takes no other text. -/
theorem parse_eq_some_iff {text : List Char} {value : Value} :
    parse number text = some value ↔ IsDocument number text value := by
  refine ⟨isDocument_of_parse, ?_⟩
  rintro ⟨before, middle, after, spaceBefore, isValue, spaceAfter, rfl⟩
  have ends : EndsNumber after := by
    have whole : EndsNumber (after ++ []) :=
      endsNumber_space_append spaceAfter fun _ isFirst => by cases isFirst
    rwa [List.append_nil] at whole
  have all : TakesValues number (before ++ (middle ++ after)).length := (takes _).1
  have read := all middle value isValue (by simp only [List.length_append]; omega) after ends
  rw [parse, skipSpace_append spaceBefore, isValue.visible.skipSpace, read]
  exact if_pos (skipSpace_of_isSpace spaceAfter)

end Completeness

end Parser

end JsonText

end JavaScript
