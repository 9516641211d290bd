/-
This file develops the decoder of UTF-8 that reads a text in chunks. It keeps what it owes
between two chunks, and drops a byte order mark before the first character. What it emits does not
depend on where the bytes are cut into chunks.
-/

import AiSwitcher.Library.Utf8

namespace Utf8

/-- What the bytes emit, and where the decoder stands after them. -/
def feed (state : State) : Bytes → List Char × State
  | [] => ([], state)
  | byte :: rest =>
      let first := step state byte.toNat
      let others := feed first.2 rest
      (first.1 ++ others.1, others.2)

theorem feed_append (state : State) (first second : Bytes) :
    feed state (first ++ second) =
      ((feed state first).1 ++ (feed (feed state first).2 second).1,
        (feed (feed state first).2 second).2) := by
  induction first generalizing state with
  | nil => rfl
  | cons byte rest inductionHypothesis =>
    rw [List.cons_append, feed, inductionHypothesis, feed, List.append_assoc]

/-- A character that is dropped if it comes first. -/
def mark : Char := '\uFEFF'

/-- The text without a byte order mark, and whether its first character was seen. -/
def unmarked : Bool → List Char → List Char × Bool
  | true, text => (text, true)
  | false, [] => ([], false)
  | false, first :: rest => (if first = mark then rest else first :: rest, true)

theorem unmarked_append (seen : Bool) (first second : List Char) :
    unmarked seen (first ++ second) =
      ((unmarked seen first).1 ++ (unmarked (unmarked seen first).2 second).1,
        (unmarked (unmarked seen first).2 second).2) := by
  cases seen with
  | true => rfl
  | false =>
    cases first with
    | nil => rfl
    | cons character rest =>
      rw [List.cons_append, unmarked, unmarked, unmarked]
      split <;> rfl

theorem length_unmarked_le (seen : Bool) (text : List Char) :
    (unmarked seen text).1.length ≤ text.length := by
  cases seen with
  | true => exact Nat.le_refl _
  | false =>
    cases text with
    | nil => exact Nat.le_refl _
    | cons first rest =>
      rw [unmarked]
      split
      · exact Nat.le_succ _
      · exact Nat.le_refl _

theorem unmarked_eq_self_iff (text : List Char) :
    (unmarked false text).1 = text ↔ text.head? ≠ some mark := by
  cases text with
  | nil => exact iff_of_true rfl (Option.some_ne_none _).symm
  | cons first rest =>
    rw [unmarked, List.head?_cons, Ne, Option.some.injEq]
    split
    next isMark =>
      exact iff_of_false (fun same => List.cons_ne_self _ _ same.symm) (not_not_intro isMark)
    next noMark => exact iff_of_true rfl noMark

theorem encode_mark : encode [mark] = byteOrderMark := by
  decide

/-- Decoding an encoded text at once drops a mark in front of it. -/
theorem decodeFatal_encode_eq (text : List Char) :
    decodeFatal (encode text) = some (unmarked false text).1 := by
  rw [decodeFatal, decodeFrom_encode, if_pos rfl, decode]
  congr 1
  by_cases marked : ∃ rest, text = mark :: rest
  · obtain ⟨rest, rfl⟩ := marked
    have start : encode (mark :: rest) = byteOrderMark ++ encode rest := by
      rw [← encode_mark, ← encode_append, List.singleton_append]
    rw [start, if_pos (List.prefix_append _ _), unmarked, if_pos rfl]
    exact decodeFrom_encode rest
  · have unmarkedText : text.head? ≠ some mark := by
      intro isMark
      obtain ⟨rest, rfl⟩ := List.head?_eq_some_iff.mp isMark
      exact marked ⟨rest, rfl⟩
    have noMark : ¬ byteOrderMark <+: encode text := by
      rintro ⟨rest, same⟩
      have decoded := congrArg (decodeFrom .start) same
      rw [decodeFrom_encode, ← encode_mark, encode, List.flatMap_singleton,
        decodeFrom_encodeChar_append] at decoded
      exact marked ⟨_, decoded.symm⟩
    rw [if_neg noMark, decodeFrom_encode, (unmarked_eq_self_iff text).mpr unmarkedText]

/-- `TextDecoder` between two chunks. -/
structure Decoder where
  state : State
  bomSeen : Bool
  deriving DecidableEq

namespace Decoder

def new : Decoder := ⟨.start, false⟩

/-- `decoder.decode(chunk, { stream: true })` -/
def write (decoder : Decoder) (chunk : Bytes) : List Char × Decoder :=
  let fed := feed decoder.state chunk
  let text := unmarked decoder.bomSeen fed.1
  (text.1, ⟨fed.2, text.2⟩)

/-- `decoder.decode()`: a character that is not finished is malformed. The decoder is new then. -/
def flush (decoder : Decoder) : List Char :=
  (unmarked decoder.bomSeen (if decoder.state = .start then [] else [replacement])).1

theorem write_nil (decoder : Decoder) : decoder.write [] = ([], decoder) := by
  obtain ⟨state, seen⟩ := decoder
  cases seen <;> rfl

theorem write_append (decoder : Decoder) (first second : Bytes) :
    decoder.write (first ++ second) =
      ((decoder.write first).1 ++ ((decoder.write first).2.write second).1,
        ((decoder.write first).2.write second).2) := by
  unfold write
  rw [feed_append]
  dsimp only
  rw [unmarked_append]

end Decoder

end Utf8
