/-
This file develops UTF-8 as the platform reads and writes it. Encoding is the one of
the core library; decoding never fails, it puts a replacement character where bytes
are malformed, so it is a machine that reads one byte at a time and knows how many
continuation bytes are still owed and which range the next one must lie in.

Decoding inverts encoding, and since no byte of a longer encoding is a newline, the
lines of an encoded text are the encodings of its lines.
-/

import AiSwitcher.Library.Lines

namespace Utf8

abbrev Bytes := List UInt8

def encode (text : List Char) : Bytes :=
  text.flatMap String.utf8EncodeChar

/-! ### Decoding -/

def replacement : Char := '\uFFFD'

/-- Where the decoder stands between two bytes: between characters, or owing `needed + 1`
continuation bytes of which the next lies between `lower` and `upper`. -/
inductive State where
  | start
  | inside (needed lower upper point : Nat)
  deriving DecidableEq

/-- The first byte of a character: what it emits and where the decoder stands afterwards. -/
def lead (byte : Nat) : List Char × State :=
  if byte ≤ 0x7F then ([Char.ofNat byte], .start)
  else if 0xC2 ≤ byte ∧ byte ≤ 0xDF then ([], .inside 0 0x80 0xBF (byte - 0xC0))
  else if 0xE0 ≤ byte ∧ byte ≤ 0xEF then
    ([], .inside 1 (if byte = 0xE0 then 0xA0 else 0x80) (if byte = 0xED then 0x9F else 0xBF)
      (byte - 0xE0))
  else if 0xF0 ≤ byte ∧ byte ≤ 0xF4 then
    ([], .inside 2 (if byte = 0xF0 then 0x90 else 0x80) (if byte = 0xF4 then 0x8F else 0xBF)
      (byte - 0xF0))
  else ([replacement], .start)

/-- One byte. A byte outside the range ends the malformed character and is read again as a first
byte. -/
def step (state : State) (byte : Nat) : List Char × State :=
  match state with
  | .start => lead byte
  | .inside needed lower upper point =>
      if lower ≤ byte ∧ byte ≤ upper then
        match needed with
        | 0 => ([Char.ofNat (point * 64 + (byte - 0x80))], .start)
        | needed + 1 => ([], .inside needed 0x80 0xBF (point * 64 + (byte - 0x80)))
      else (replacement :: (lead byte).1, (lead byte).2)

def decodeFrom (state : State) : Bytes → List Char
  | [] => if state = .start then [] else [replacement]
  | byte :: rest => (step state byte.toNat).1 ++ decodeFrom (step state byte.toNat).2 rest

def byteOrderMark : Bytes := [0xEF, 0xBB, 0xBF]

/-- Reading a file as text: a leading byte order mark is dropped. -/
def decode (bytes : Bytes) : List Char :=
  decodeFrom .start (if byteOrderMark <+: bytes then bytes.drop 3 else bytes)

/-- Reading bytes that must be well formed. -/
def decodeFatal (bytes : Bytes) : Option (List Char) :=
  if encode (decodeFrom .start bytes) = bytes then some (decode bytes) else none

/-! ### Decoding inverts encoding -/

theorem decodeFrom_ofNat_cons (state : State) {value : Nat} (small : value < 256) (rest : Bytes) :
    decodeFrom state (UInt8.ofNat value :: rest) =
      (step state value).1 ++ decodeFrom (step state value).2 rest := by
  have same : (UInt8.ofNat value).toNat = value := by simp; omega
  rw [decodeFrom, same]

/-- A lead byte whose character is unfinished. -/
theorem decodeFrom_lead {value : Nat} {state : State} (small : value < 256)
    (unfinished : lead value = ([], state)) (rest : Bytes) :
    decodeFrom .start (UInt8.ofNat value :: rest) = decodeFrom state rest := by
  rw [decodeFrom_ofNat_cons _ small, step, unfinished]
  rfl

/-- A continuation byte after which more are owed. -/
theorem decodeFrom_inside {needed lower upper point value : Nat}
    (low : lower ≤ value % 64 + 128) (high : value % 64 + 128 ≤ upper) (rest : Bytes) :
    decodeFrom (.inside (needed + 1) lower upper point) (UInt8.ofNat (value % 64 + 128) :: rest) =
      decodeFrom (.inside needed 0x80 0xBF (point * 64 + value % 64)) rest := by
  rw [decodeFrom_ofNat_cons _ (by omega), step, if_pos ⟨low, high⟩, Nat.add_sub_cancel]
  rfl

/-- The last continuation byte. -/
theorem decodeFrom_last {lower upper point value : Nat}
    (low : lower ≤ value % 64 + 128) (high : value % 64 + 128 ≤ upper) (rest : Bytes) :
    decodeFrom (.inside 0 lower upper point) (UInt8.ofNat (value % 64 + 128) :: rest) =
      Char.ofNat (point * 64 + value % 64) :: decodeFrom .start rest := by
  rw [decodeFrom_ofNat_cons _ (by omega), step, if_pos ⟨low, high⟩, Nat.add_sub_cancel]
  rfl

theorem decodeFrom_encodeChar_append (character : Char) (rest : Bytes) :
    decodeFrom .start (String.utf8EncodeChar character ++ rest) =
      character :: decodeFrom .start rest := by
  have same : Char.ofNat character.val.toNat = character := Char.ofNat_toNat character
  have valid : character.val.toNat < 0xD800 ∨
      0xDFFF < character.val.toNat ∧ character.val.toNat < 0x110000 := character.valid
  unfold String.utf8EncodeChar
  generalize character.val.toNat = point at same valid
  show decodeFrom .start ((if point ≤ 0x7F then _ else if point ≤ 0x7FF then _ else
    if point ≤ 0xFFFF then _ else _) ++ rest) = _
  by_cases one : point ≤ 0x7F
  · rw [if_pos one, List.cons_append, decodeFrom_ofNat_cons _ (by omega), step, lead, if_pos one,
      same]
    rfl
  rw [if_neg one]
  by_cases two : point ≤ 0x7FF
  · have first : lead (point / 64 % 32 + 192) = ([], .inside 0 0x80 0xBF (point / 64 % 32)) := by
      rw [lead, if_neg (by omega), if_pos (by omega), Nat.add_sub_cancel]
    have whole : point / 64 % 32 * 64 + point % 64 = point := by omega
    rw [if_pos two, List.cons_append, decodeFrom_lead (by omega) first, List.cons_append,
      decodeFrom_last (by omega) (by omega), whole, same, List.nil_append]
  rw [if_neg two]
  by_cases three : point ≤ 0xFFFF
  · have first : lead (point / 4096 % 16 + 224) =
        ([], .inside 1 (if point / 4096 = 0 then 0xA0 else 0x80)
          (if point / 4096 = 13 then 0x9F else 0xBF) (point / 4096 % 16)) := by
      rw [lead, if_neg (by omega), if_neg (by omega), if_pos (by omega), Nat.add_sub_cancel]
      congr 2 <;> congr 1 <;> rw [eq_iff_iff] <;> omega
    have whole : (point / 4096 % 16 * 64 + point / 64 % 64) * 64 + point % 64 = point := by omega
    rw [if_pos three, List.cons_append, decodeFrom_lead (by omega) first, List.cons_append,
      decodeFrom_inside (by split <;> omega) (by split <;> omega), List.cons_append,
      decodeFrom_last (by omega) (by omega), whole, same, List.nil_append]
  · have first : lead (point / 262144 % 8 + 240) =
        ([], .inside 2 (if point / 262144 = 0 then 0x90 else 0x80)
          (if point / 262144 = 4 then 0x8F else 0xBF) (point / 262144 % 8)) := by
      rw [lead, if_neg (by omega), if_neg (by omega), if_neg (by omega), if_pos (by omega),
        Nat.add_sub_cancel]
      congr 2 <;> congr 1 <;> rw [eq_iff_iff] <;> omega
    have whole : ((point / 262144 % 8 * 64 + point / 4096 % 64) * 64 + point / 64 % 64) * 64 +
        point % 64 = point := by omega
    rw [if_neg three, List.cons_append, decodeFrom_lead (by omega) first, List.cons_append,
      decodeFrom_inside (by split <;> omega) (by split <;> omega), List.cons_append,
      decodeFrom_inside (by omega) (by omega), List.cons_append,
      decodeFrom_last (by omega) (by omega), whole, same, List.nil_append]

theorem encode_cons (character : Char) (text : List Char) :
    encode (character :: text) = String.utf8EncodeChar character ++ encode text :=
  List.flatMap_cons

theorem encode_append (first second : List Char) :
    encode (first ++ second) = encode first ++ encode second :=
  List.flatMap_append

theorem decodeFrom_encode (text : List Char) : decodeFrom .start (encode text) = text := by
  induction text with
  | nil => rfl
  | cons character text inductionHypothesis =>
    rw [encode_cons, decodeFrom_encodeChar_append, inductionHypothesis]

theorem encode_injective : Function.Injective encode :=
  Function.LeftInverse.injective decodeFrom_encode

theorem decode_encode {text : List Char} (unmarked : ¬ byteOrderMark <+: encode text) :
    decode (encode text) = text := by
  rw [decode, if_neg unmarked, decodeFrom_encode]

theorem decodeFatal_encode {text : List Char} (unmarked : ¬ byteOrderMark <+: encode text) :
    decodeFatal (encode text) = some text := by
  rw [decodeFatal, decodeFrom_encode, if_pos rfl, decode_encode unmarked]

/-! ### Lines of an encoded text -/

/-- The byte of a newline. -/
def newline : UInt8 := 10

theorem encode_newline : encode ['\n'] = [newline] := rfl

theorem ofNat_ne_ofNat {byte value : Nat} (isByte : byte < 256) (small : value < 256)
    (different : value ≠ byte) : UInt8.ofNat byte ≠ UInt8.ofNat value := by
  intro equal
  have same := congrArg UInt8.toNat equal
  rw [UInt8.toNat_ofNat_of_lt' isByte, UInt8.toNat_ofNat_of_lt' small] at same
  exact different same.symm

/-- A byte of ASCII is in no encoding but that of its own character. -/
theorem ascii_not_mem_encodeChar {byte : Nat} (ascii : byte < 128) {character : Char}
    (different : character.toNat ≠ byte) :
    UInt8.ofNat byte ∉ String.utf8EncodeChar character := by
  have other : character.val.toNat ≠ byte := different
  unfold String.utf8EncodeChar
  generalize character.val.toNat = point at other
  show UInt8.ofNat byte ∉ if point ≤ 0x7F then _ else if point ≤ 0x7FF then _ else
    if point ≤ 0xFFFF then _ else _
  have continuation : ∀ value, UInt8.ofNat byte ≠ UInt8.ofNat (value % 64 + 128) := by
    intro value
    exact ofNat_ne_ofNat (by omega) (by omega) (by omega)
  by_cases one : point ≤ 0x7F
  · rw [if_pos one, List.mem_singleton]
    exact ofNat_ne_ofNat (by omega) (by omega) other
  rw [if_neg one]
  by_cases two : point ≤ 0x7FF
  · rw [if_pos two]
    simp only [List.mem_cons, List.not_mem_nil, or_false, not_or]
    exact ⟨ofNat_ne_ofNat (by omega) (by omega) (by omega), continuation _⟩
  rw [if_neg two]
  by_cases three : point ≤ 0xFFFF
  · rw [if_pos three]
    simp only [List.mem_cons, List.not_mem_nil, or_false, not_or]
    exact ⟨ofNat_ne_ofNat (by omega) (by omega) (by omega), continuation _, continuation _⟩
  · rw [if_neg three]
    simp only [List.mem_cons, List.not_mem_nil, or_false, not_or]
    exact ⟨ofNat_ne_ofNat (by omega) (by omega) (by omega), continuation _, continuation _,
      continuation _⟩

theorem ascii_not_mem_encode {byte : Nat} (ascii : byte < 128) {text : List Char}
    (absent : ∀ character ∈ text, character.toNat ≠ byte) : UInt8.ofNat byte ∉ encode text := by
  rw [encode, List.mem_flatMap]
  intro ⟨character, member, inside⟩
  exact ascii_not_mem_encodeChar ascii (absent character member) inside

theorem length_encode_ascii {text : List Char} (ascii : ∀ character ∈ text, character.toNat < 128) :
    (encode text).length = text.length := by
  induction text with
  | nil => rfl
  | cons character text inductionHypothesis =>
    have small : character.val.toNat ≤ 0x7F := by
      have isAscii : character.val.toNat < 128 := ascii character List.mem_cons_self
      omega
    have single : (String.utf8EncodeChar character).length = 1 := by
      unfold String.utf8EncodeChar
      rw [if_pos small, List.length_singleton]
    rw [encode_cons, List.length_append, single, List.length_cons,
      inductionHypothesis fun other member => ascii other (List.mem_cons_of_mem _ member)]
    omega

theorem newline_not_mem_encode {text : List Char} (unbroken : '\n' ∉ text) :
    newline ∉ encode text := by
  refine ascii_not_mem_encode (show 10 < 128 by decide) fun character member equal => unbroken ?_
  obtain rfl : character = '\n' := Char.ext (UInt32.toNat_inj.mp equal)
  exact member

theorem encode_terminated (lines : List (List Char)) :
    encode (Lines.terminated '\n' lines) = Lines.terminated newline (lines.map encode) := by
  induction lines with
  | nil => rfl
  | cons line lines inductionHypothesis =>
    rw [List.map_cons, Lines.terminated_cons, Lines.terminated_cons, encode_append, encode_cons,
      inductionHypothesis]
    rfl

theorem unbroken_map_encode {lines : List (List Char)} (unbroken : Lines.Unbroken '\n' lines) :
    Lines.Unbroken newline (lines.map encode) :=
  List.forall_mem_map.mpr fun line member => newline_not_mem_encode (unbroken line member)

/-- Splitting an encoded text into records is encoding its records. -/
theorem records_encode (text : List Char) :
    Lines.records newline (encode text) = (Lines.records '\n' text).map encode := by
  obtain ⟨lines, rest, whole, unbroken, last⟩ := Lines.exists_terminated '\n' text
  rw [whole, encode_append, encode_terminated,
    Lines.records_form newline (unbroken_map_encode unbroken) (newline_not_mem_encode last),
    Lines.records_form '\n' unbroken last]

end Utf8
