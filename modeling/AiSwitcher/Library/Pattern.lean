/-
This file models the regular expressions of JavaScript's `RegExp` literals that test a
whole text: a pattern, the remainder of a pattern after one character, and whether a
pattern accepts a text. The literals with `^` and `$` are patterns themselves; one that
starts with `(?:^|\/)` accepts anything up to a slash first.
-/

import Mathlib.Data.List.Basic

namespace JavaScript

/-- A regular expression over the characters of a text. -/
inductive Pattern where
  | never
  | empty
  | character (accepted : Char → Bool)
  | either (first second : Pattern)
  | sequence (first second : Pattern)
  | many (body : Pattern)

namespace Pattern

/-- Whether the pattern accepts the empty text. -/
def acceptsEmpty : Pattern → Bool
  | .never => false
  | .empty => true
  | .character _ => false
  | .either first second => first.acceptsEmpty || second.acceptsEmpty
  | .sequence first second => first.acceptsEmpty && second.acceptsEmpty
  | .many _ => true

/-- A choice, without the alternatives that accept nothing. -/
def orElse : Pattern → Pattern → Pattern
  | .never, second => second
  | first, .never => first
  | first, second => .either first second

/-- A sequence, without the parts that accept nothing or only the empty text. -/
def andThen : Pattern → Pattern → Pattern
  | .never, _ => .never
  | .empty, second => second
  | first, second => .sequence first second

/-- What must follow the character. -/
def after (next : Char) : Pattern → Pattern
  | .never => .never
  | .empty => .never
  | .character accepted => if accepted next then .empty else .never
  | .either first second => (first.after next).orElse (second.after next)
  | .sequence first second =>
      let rest := (first.after next).andThen second
      if first.acceptsEmpty then rest.orElse (second.after next) else rest
  | .many body => (body.after next).andThen (.many body)

/-- `/^pattern$/.test(text)`. -/
def test (pattern : Pattern) (text : String) : Bool :=
  (text.toList.foldl (fun rest next => rest.after next) pattern).acceptsEmpty

/-! ### Building patterns -/

/-- The characters of a text, each standing for itself. -/
def exactly (text : String) : Pattern :=
  text.toList.foldr (fun next rest => .andThen (.character (· == next)) rest) .empty

/-- The parts one after the other. -/
def all (parts : List Pattern) : Pattern :=
  parts.foldr .sequence .empty

/-- One of the alternatives. -/
def oneOf (alternatives : List Pattern) : Pattern :=
  alternatives.foldr .either .never

/-- `body+`. -/
def atLeastOne (body : Pattern) : Pattern :=
  .sequence body (.many body)

/-- `body?`. -/
def optional (body : Pattern) : Pattern :=
  .either .empty body

/-- `.`, which stands for every character but the line terminators. -/
def dot : Pattern :=
  .character fun next =>
    next != '\n' && next != '\r' && next.toNat != 0x2028 && next.toNat != 0x2029

/-- `[^/]+`. -/
def segment : Pattern :=
  atLeastOne (.character (· != '/'))

/-- `(?:^|\/)` in front of a pattern that runs to the end of the text. -/
def afterSlash (pattern : Pattern) : Pattern :=
  .sequence (optional (.sequence (.many (.character fun _ => true)) (exactly "/"))) pattern

end Pattern

end JavaScript
