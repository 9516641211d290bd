/-
This file settles for which socket tables `linuxPeerUid` returns a user: for the peers that a
loopback connection can have, just for the tables in which a single socket is the other end. The
addresses of the tables are read word by word, and the ones the server knows are texts; both come to
one text for each address.
-/

import AiSwitcher.Server.PeerUid

namespace AiSwitcher.Guard

open JavaScript.JsonText (Units codeUnits)
open JavaScript.LowerCase (isSpace lowerAscii)
open JavaScript.Numerals

/-! ### Reading addresses -/

/-- The bytes of the first word of an address, and those of the other ones. -/
theorem procBytes_append {word : Units} (eight : word.length = 8) (rest : Units) :
    procBytes (word ++ rest) =
      ([6, 4, 2, 0].map fun place => parseInt 16 ((word.drop place).take 2)) ++ procBytes rest := by
  have more : (8 + rest.length + 7) / 8 = (rest.length + 7) / 8 + 1 := by omega
  rw [procBytes, List.length_append, eight, more, List.range_succ_eq_map, List.flatMap_cons,
    List.flatMap_map, procBytes]
  congr 1
  · refine List.map_congr_left fun place member => ?_
    have bound : place + 2 ≤ 8 := by
      simp only [List.mem_cons, List.not_mem_nil, or_false] at member
      omega
    rw [Nat.mul_zero, Nat.zero_add, List.drop_append_of_le_length (by omega),
      List.take_append_of_le_length (by rw [List.length_drop]; omega)]
  · refine List.flatMap_congr fun index _ => List.map_congr_left fun place _ => ?_
    have later : 8 * (index + 1) + place = word.length + (8 * index + place) := by omega
    rw [Nat.succ_eq_add_one, later, List.drop_append, List.drop_eq_nil_of_le (by omega),
      List.nil_append, Nat.add_sub_cancel_left]

/-- The two digits at a place of a numeral. -/
theorem take_drop_numeral {width place : ℕ} (low : ℕ) (isPlace : width = place + 2 + low)
    (number : ℕ) : parseInt 16 (((numeral 16 width number).drop place).take 2) =
      some ↑(number / 16 ^ low % 256) := by
  rw [isPlace, numeral_add, numeral_add, List.append_assoc, List.drop_left' (length_numeral _ _ _),
    List.take_left' (length_numeral _ _ _), parseInt_numeral (by decide) (by decide) (by decide)]
  rfl

def Word.bytes (word : Word) : List (Option ℤ) :=
  [some word.first.toNat, some word.second.toNat, some word.third.toNat, some word.fourth.toNat]

theorem procBytes_word (word : Word) (rest : Units) :
    procBytes (word.hex ++ rest) = word.bytes ++ procBytes rest := by
  have first := word.first.toNat_lt
  have second := word.second.toNat_lt
  have third := word.third.toNat_lt
  have fourth := word.fourth.toNat_lt
  have eight : word.hex.length = 8 := length_numeral _ _ _
  have firstByte : word.number / 16 ^ 0 % 256 = word.first.toNat := by
    rw [Word.number]
    omega
  have secondByte : word.number / 16 ^ 2 % 256 = word.second.toNat := by
    rw [Word.number]
    omega
  have thirdByte : word.number / 16 ^ 4 % 256 = word.third.toNat := by
    rw [Word.number]
    omega
  have fourthByte : word.number / 16 ^ 6 % 256 = word.fourth.toNat := by
    rw [Word.number]
    omega
  rw [procBytes_append eight, Word.hex, List.map_cons, List.map_cons, List.map_cons, List.map_cons,
    List.map_nil, take_drop_numeral 0 rfl, take_drop_numeral 2 rfl, take_drop_numeral 4 rfl,
    take_drop_numeral 6 rfl, firstByte, secondByte, thirdByte, fourthByte, Word.bytes]

theorem procBytes_hex (word : Word) : procBytes word.hex = word.bytes := by
  have whole := procBytes_word word []
  rw [List.append_nil] at whole
  exact whole

/-! ### One text for each address -/

/-- An address of four bytes that is written as one of sixteen. -/
def Address.plain : Address → Address
  | ipv6 first second third fourth =>
      if first = ⟨0, 0, 0, 0⟩ ∧ second = ⟨0, 0, 0, 0⟩ ∧ third = ⟨0, 0, 255, 255⟩ then ipv4 fourth
      else ipv6 first second third fourth
  | address => address

def loopback6 : Address := .ipv6 ⟨0, 0, 0, 0⟩ ⟨0, 0, 0, 0⟩ ⟨0, 0, 0, 0⟩ ⟨0, 0, 0, 1⟩

def dotted (word : Word) : Units :=
  decimal word.first.toNat ++ dot :: (decimal word.second.toNat ++
    dot :: (decimal word.third.toNat ++ dot :: decimal word.fourth.toNat))

/-- The bytes of an address of four words. -/
def bytes6 (first second third fourth : Word) : List (Option ℤ) :=
  first.bytes ++ (second.bytes ++ (third.bytes ++ fourth.bytes))

/-- What the code makes of an address. -/
def addressText : Address → Units
  | .ipv4 word => dotted word
  | .ipv6 first second third fourth =>
      if .ipv6 first second third fourth = loopback6 then text "::1"
      else (bytes6 first second third fourth).flatMap fun byte => (printHex byte).leftpad 2 48

theorem joinDots_bytes (word : Word) : joinDots word.bytes = dotted word := by
  rw [joinDots, Word.bytes, List.map_cons, List.map_cons, List.map_cons, List.map_cons,
    List.map_nil, List.intercalate_cons_cons, List.intercalate_cons_cons,
    List.intercalate_cons_cons, List.intercalate_singleton]
  simp only [List.append_assoc, List.singleton_append]
  rfl

theorem byte_eq_iff (byte : UInt8) (value : ℕ) (small : value < 256) :
    (some (byte.toNat : ℤ) = some (value : ℤ)) ↔ byte = .ofNat value := by
  rw [Option.some_inj, Int.ofNat_inj, ← UInt8.toNat_inj, UInt8.toNat_ofNat_of_lt' small]

theorem byte_eq_zero (byte : UInt8) : byte.toNat = 0 ↔ byte = 0 :=
  @UInt8.toNat_inj byte 0

/-- The test for ten zeros and two full bytes. -/
theorem mapped_iff (first second third fourth : Word) :
    (((bytes6 first second third fourth).take 10).all (· = some 0) &&
      (bytes6 first second third fourth)[10]? = some (some 255) &&
      (bytes6 first second third fourth)[11]? = some (some 255)) = true ↔
    first = ⟨0, 0, 0, 0⟩ ∧ second = ⟨0, 0, 0, 0⟩ ∧ third = ⟨0, 0, 255, 255⟩ := by
  have full (byte : UInt8) : (some (byte.toNat : ℤ) = some 255) ↔ byte = 255 :=
    byte_eq_iff byte 255 (by decide)
  cases first
  cases second
  cases third
  simp [bytes6, Word.bytes, byte_eq_zero, full, and_assoc]

/-- The test for fifteen zeros and a one. -/
theorem loopback_iff (first second third fourth : Word) :
    (((bytes6 first second third fourth).take 15).all (· = some 0) &&
      (bytes6 first second third fourth)[15]? = some (some 1)) = true ↔
    Address.ipv6 first second third fourth = loopback6 := by
  have one (byte : UInt8) : (some (byte.toNat : ℤ) = some 1) ↔ byte = 1 :=
    byte_eq_iff byte 1 (by decide)
  cases first
  cases second
  cases third
  cases fourth
  simp [bytes6, Word.bytes, byte_eq_zero, one, and_assoc, loopback6]

theorem decodeProcAddress_hex (address : Address) :
    decodeProcAddress address.hex = addressText address.plain := by
  cases address with
  | ipv4 word =>
    rw [decodeProcAddress, Address.hex, procBytes_hex]
    exact (if_pos rfl).trans (joinDots_bytes word)
  | ipv6 first second third fourth =>
    have isBytes : procBytes (Address.ipv6 first second third fourth).hex =
        bytes6 first second third fourth := by
      rw [Address.hex, procBytes_word, procBytes_word, procBytes_word, procBytes_hex, bytes6]
    have sixteen : (bytes6 first second third fourth).length ≠ 4 := fun four => by cases four
    rw [decodeProcAddress, isBytes, if_neg sixteen, Address.plain]
    by_cases mapped : first = ⟨0, 0, 0, 0⟩ ∧ second = ⟨0, 0, 0, 0⟩ ∧ third = ⟨0, 0, 255, 255⟩
    · rw [if_pos ((mapped_iff first second third fourth).mpr mapped), if_pos mapped]
      exact joinDots_bytes fourth
    · rw [if_neg fun isMapped => mapped ((mapped_iff first second third fourth).mp isMapped),
        if_neg mapped, addressText]
      by_cases loops : Address.ipv6 first second third fourth = loopback6
      · rw [if_pos ((loopback_iff first second third fourth).mpr loops), if_pos loops]
      · rw [if_neg fun isLoop => loops ((loopback_iff first second third fourth).mp isLoop),
          if_neg loops]

/-! ### Telling texts apart -/

/-- What the server knows an address as. -/
inductive Peer where
  | ipv4 (word : Word)
  | mapped (spelling : Units) (isPrefix : spelling.map lowerAscii = text "::ffff:") (word : Word)
  | loopback6

def Peer.text : Peer → Units
  | .ipv4 word => dotted word
  | .mapped spelling _ word => spelling ++ dotted word
  | .loopback6 => Guard.text "::1"

def Peer.address : Peer → Address
  | .ipv4 word => .ipv4 word
  | .mapped _ _ word => .ipv4 word
  | .loopback6 => Guard.loopback6

theorem not_mem_decimal {unit : UInt16} (notDigit : digitOf 10 unit = none) (number : ℕ) :
    unit ∉ decimal number :=
  fun member => digitOf_decimal number unit member notDigit

theorem decimal_ne_nil (number : ℕ) : decimal number ≠ [] :=
  mt List.map_eq_nil_iff.mp Nat.toDigits_ne_nil

theorem split_dotted (word : Word) : Lines.split dot (dotted word) =
    [decimal word.first.toNat, decimal word.second.toNat, decimal word.third.toNat,
      decimal word.fourth.toNat] := by
  have noDot (number : ℕ) : dot ∉ decimal number := not_mem_decimal (by decide) number
  rw [dotted, Lines.split_line_append _ (noDot _), Lines.split_line_append _ (noDot _),
    Lines.split_line_append _ (noDot _), Lines.split_of_unbroken _ (noDot _)]

theorem dotted_injective : Function.Injective dotted := by
  intro first second same
  have parts := congrArg (Lines.split dot) same
  rw [split_dotted, split_dotted] at parts
  have byte {one other : UInt8} (equal : decimal one.toNat = decimal other.toNat) : one = other :=
    UInt8.toNat_inj.mp (decimal_injective equal)
  cases first
  cases second
  simp only [List.cons.injEq, and_true] at parts
  rw [Word.mk.injEq]
  exact ⟨byte parts.1, byte parts.2.1, byte parts.2.2.1, byte parts.2.2.2⟩

theorem dot_mem_dotted (word : Word) : dot ∈ dotted word :=
  List.mem_append_right _ List.mem_cons_self

theorem dotted_ne_loopback (word : Word) : dotted word ≠ text "::1" :=
  fun same => absurd (same ▸ dot_mem_dotted word) (by decide)

/-- Texts of sixteen bytes have no dot and no colon. -/
theorem not_mem_printHex : ∀ byte < 256,
    dot ∉ (printHex (some (byte : ℕ))).leftpad 2 48 ∧
      colon ∉ (printHex (some (byte : ℕ))).leftpad 2 48 := by
  decide +kernel

theorem mem_bytes {word : Word} {byte : Option ℤ} (member : byte ∈ word.bytes) :
    ∃ number < 256, byte = some (number : ℕ) := by
  simp only [Word.bytes, List.mem_cons, List.not_mem_nil, or_false] at member
  rcases member with rfl | rfl | rfl | rfl <;> exact ⟨_, UInt8.toNat_lt _, rfl⟩

theorem not_mem_hexText {first second third fourth : Word}
    (notLoopback : Address.ipv6 first second third fourth ≠ loopback6) :
    dot ∉ addressText (.ipv6 first second third fourth) ∧
      colon ∉ addressText (.ipv6 first second third fourth) := by
  have apart {unit : UInt16} (absent : ∀ byte < 256,
      unit ∉ (printHex (some (byte : ℕ))).leftpad 2 48) :
      unit ∉ addressText (.ipv6 first second third fourth) := by
    rw [addressText, if_neg notLoopback, List.mem_flatMap]
    rintro ⟨byte, member, among⟩
    obtain ⟨number, small, rfl⟩ : ∃ number < 256, byte = some ((number : ℕ) : ℤ) := by
      rcases List.mem_append.mp member with inFirst | others
      · exact mem_bytes inFirst
      rcases List.mem_append.mp others with inSecond | others
      · exact mem_bytes inSecond
      rcases List.mem_append.mp others with inThird | inFourth
      · exact mem_bytes inThird
      · exact mem_bytes inFourth
    exact absent number small among
  exact ⟨apart fun byte small => (not_mem_printHex byte small).1,
    apart fun byte small => (not_mem_printHex byte small).2⟩

theorem addressText_loopback6 : addressText loopback6 = text "::1" := by
  rw [loopback6, addressText]
  exact if_pos rfl

/-- The text of an address tells it from all other ones that a peer can have. -/
theorem addressText_eq_iff (address : Address) (peer : Peer) :
    addressText address = addressText peer.address ↔ address = peer.address := by
  refine ⟨fun same => ?_, fun same => by rw [same]⟩
  have isLoopback := addressText_loopback6
  have ofWord (word : Word) (same : addressText address = dotted word) : address = .ipv4 word := by
    cases address with
    | ipv4 other => rw [dotted_injective same]
    | ipv6 first second third fourth =>
      by_cases loops : Address.ipv6 first second third fourth = loopback6
      · rw [loops, isLoopback] at same
        exact absurd same.symm (dotted_ne_loopback word)
      · exact absurd (same ▸ dot_mem_dotted word) (not_mem_hexText loops).1
  cases peer with
  | ipv4 word => exact ofWord word same
  | mapped spelling isPrefix word => exact ofWord word same
  | loopback6 =>
    rw [Peer.address, isLoopback] at same
    cases address with
    | ipv4 other => exact absurd same (dotted_ne_loopback other)
    | ipv6 first second third fourth =>
      by_contra notLoopback
      refine (not_mem_hexText notLoopback).2 ?_
      rw [same]
      decide

theorem head_dotted (word : Word) :
    ∃ unit rest, dotted word = unit :: rest ∧ digitOf 10 unit ≠ none := by
  obtain ⟨unit, rest, isDecimal⟩ := List.exists_cons_of_ne_nil (decimal_ne_nil word.first.toNat)
  refine ⟨unit, _, by rw [dotted, isDecimal, List.cons_append], ?_⟩
  exact digitOf_decimal word.first.toNat unit (isDecimal ▸ List.mem_cons_self)

theorem eq_colon_of_lowerAscii {unit : UInt16} (lowered : lowerAscii unit = colon) :
    unit = colon := by
  rw [lowerAscii] at lowered
  split at lowered
  · next letter =>
    have sum := congrArg UInt16.toNat lowered
    have isColon : colon.toNat = 58 := rfl
    have isShift : (32 : UInt16).toNat = 32 := rfl
    rw [UInt16.toNat_add, isColon, isShift] at sum
    omega
  · exact lowered

/-- The texts of the server come to the texts that the tables are read as. -/
theorem dropMapped_text (peer : Peer) : dropMapped peer.text = addressText peer.address := by
  cases peer with
  | ipv4 word =>
    refine if_neg fun isPrefix => ?_
    obtain ⟨unit, rest, isDotted, isDigit⟩ := head_dotted word
    rw [Peer.text, isDotted] at isPrefix
    have lowered : lowerAscii unit = colon := (List.cons.inj isPrefix).1
    rw [eq_colon_of_lowerAscii lowered] at isDigit
    exact isDigit (by decide)
  | mapped spelling isPrefix word =>
    have seven : spelling.length = 7 :=
      (List.length_map lowerAscii).symm.trans (congrArg _ isPrefix)
    rw [dropMapped, Peer.text, List.take_left' seven, isPrefix, if_pos rfl, List.drop_left' seven]
    rfl
  | loopback6 =>
    rw [Peer.address, addressText_loopback6]
    decide

def IsLoopback : Address → Prop
  | .ipv4 word => word.first = 127
  | address => address = loopback6

instance (address : Address) : Decidable (IsLoopback address) :=
  match address with
  | .ipv4 _ => decEq _ _
  | .ipv6 _ _ _ _ => decEq _ _

theorem isLoopbackAddress_iff (address : Address) :
    isLoopbackAddress (addressText address) = decide (IsLoopback address) := by
  rw [Bool.eq_iff_iff, decide_eq_true_iff, isLoopbackAddress]
  simp only [Bool.and_eq_true, Bool.or_eq_true, decide_eq_true_iff]
  cases address with
  | ipv4 word =>
    have start : text "127." = decimal 127 ++ [dot] := by decide
    have isPrefix : (text "127.").isPrefixOf (dotted word) = true ↔ word.first = 127 := by
      rw [List.isPrefixOf_iff_prefix, start]
      constructor
      · rintro ⟨rest, whole⟩
        have parts := congrArg (Lines.split dot) whole
        rw [split_dotted, List.append_assoc, List.singleton_append,
          Lines.split_line_append _ (not_mem_decimal (by decide) 127)] at parts
        exact UInt8.toNat_inj.mp (decimal_injective (List.cons.inj parts).1).symm
      · intro isFirst
        rw [dotted, isFirst]
        exact ⟨_, List.append_assoc _ _ _⟩
    have present : dotted word ≠ [] := List.ne_nil_of_mem (dot_mem_dotted word)
    rw [addressText, isPrefix]
    constructor
    · rintro ⟨-, ((isFirst | same) | same) | same⟩
      · exact isFirst
      · exact isPrefix.mp (by rw [same]; decide)
      · exact absurd same (dotted_ne_loopback word)
      · obtain ⟨unit, rest, isDotted, isDigit⟩ := head_dotted word
        rw [isDotted] at same
        rw [(List.cons.inj same).1] at isDigit
        exact absurd isDigit (by decide)
    · exact fun isFirst => ⟨present, .inl (.inl (.inl isFirst))⟩
  | ipv6 first second third fourth =>
    by_cases loops : Address.ipv6 first second third fourth = loopback6
    · rw [loops, addressText_loopback6]
      decide
    · obtain ⟨noDot, noColon⟩ := not_mem_hexText loops
      refine iff_of_false ?_ loops
      rintro ⟨-, ((isPrefix | same) | same) | same⟩
      · exact noDot ((List.isPrefixOf_iff_prefix.mp isPrefix).subset (by decide))
      · exact noDot (same ▸ by decide)
      · exact noColon (same ▸ by decide)
      · exact noColon (same ▸ by decide)

/-! ### Reading lines -/

theorem isSpace_blank : isSpace blank = true := by decide

theorem isWord_digits {base : ℕ} {digits : Units} (present : digits ≠ [])
    (all : ∀ unit ∈ digits, digitOf base unit ≠ none) : Words.IsWord isSpace digits :=
  ⟨present, fun unit member => not_isSpace_of_digit (all unit member)⟩

theorem isWord_decimal (number : ℕ) : Words.IsWord isSpace (decimal number) :=
  isWord_digits (decimal_ne_nil number) (digitOf_decimal number)

theorem numeral_ne_nil {width : ℕ} (wide : 0 < width) (number : ℕ) : numeral 16 width number ≠ [] :=
  List.ne_nil_of_length_pos (by rw [length_numeral]; exact wide)

theorem isWord_numeral {width : ℕ} (wide : 0 < width) (number : ℕ) :
    Words.IsWord isSpace (numeral 16 width number) :=
  isWord_digits (numeral_ne_nil wide number) (digitOf_numeral (by decide) (by decide) _ _)

theorem digitOf_hex (address : Address) : ∀ unit ∈ address.hex, digitOf 16 unit ≠ none := by
  have word (word : Word) : ∀ unit ∈ word.hex, digitOf 16 unit ≠ none :=
    digitOf_numeral (by decide) (by decide) _ _
  cases address with
  | ipv4 only => exact word only
  | ipv6 first second third fourth =>
    exact List.forall_mem_append.mpr ⟨word first, List.forall_mem_append.mpr ⟨word second,
      List.forall_mem_append.mpr ⟨word third, word fourth⟩⟩⟩

theorem hex_ne_nil (address : Address) : address.hex ≠ [] := by
  cases address with
  | ipv4 word => exact numeral_ne_nil (by decide) _
  | ipv6 first second third fourth =>
    exact List.append_ne_nil_of_left_ne_nil (numeral_ne_nil (by decide) _) _

theorem isWord_column (endpoint : Endpoint) : Words.IsWord isSpace endpoint.column := by
  refine ⟨List.append_ne_nil_of_left_ne_nil (hex_ne_nil _) _, fun unit member => ?_⟩
  rcases List.mem_append.mp member with inAddress | after
  · exact not_isSpace_of_digit (digitOf_hex _ unit inAddress)
  · rcases List.mem_cons.mp after with rfl | inPort
    · decide
    · exact (isWord_numeral (by decide) _).2 unit inPort

theorem split_column (endpoint : Endpoint) : Lines.split colon endpoint.column =
    [endpoint.address.hex, numeral 16 4 endpoint.port.toNat] := by
  have noColon {digits : Units} (all : ∀ unit ∈ digits, digitOf 16 unit ≠ none) :
      colon ∉ digits := fun member => all colon member (by decide)
  rw [Endpoint.column, Lines.split_line_append _ (noColon (digitOf_hex _)),
    Lines.split_of_unbroken _ (noColon (digitOf_numeral (by decide) (by decide) _ _))]

theorem isWord_columns (socket : Socket) :
    ∀ column ∈ socket.columns, Words.IsWord isSpace column.2 := by
  refine List.forall_mem_append.mpr ⟨?_, ?_⟩
  · simp only [List.forall_mem_cons]
    exact ⟨socket.slot.2, isWord_column _, isWord_column _, isWord_numeral (by decide) _,
      socket.queues.2, socket.timer.2, socket.retransmits.2, isWord_decimal _, socket.timeout.2,
      isWord_decimal _, List.forall_mem_nil _⟩
  · intro column member
    obtain ⟨word, -, rfl⟩ := List.mem_map.mp member
    exact word.2

theorem words_replicate (count : ℕ) : Words.words isSpace (List.replicate count blank) = [] := by
  have whole := Words.words_replicate_append isSpace_blank count []
  rw [List.append_nil] at whole
  exact whole

theorem words_columns (padding : ℕ) {columns : List (ℕ × Units)}
    (all : ∀ column ∈ columns, Words.IsWord isSpace column.2) :
    Words.words isSpace
      (List.intercalate [blank] (columns.map columnText) ++ List.replicate padding blank) =
      columns.map Prod.snd := by
  induction columns with
  | nil => exact words_replicate padding
  | cons column columns inductionHypothesis =>
    obtain ⟨isWord, others⟩ := List.forall_mem_cons.mp all
    cases columns with
    | nil =>
      rw [List.map_cons, List.map_nil, List.intercalate_singleton, columnText, List.leftpad,
        List.append_assoc, Words.words_replicate_append isSpace_blank, List.map_singleton]
      cases padding with
      | zero => rw [List.replicate_zero, List.append_nil, Words.words_of_isWord isWord]
      | succ padding =>
        rw [List.replicate_succ, Words.words_append_space isWord isSpace_blank, words_replicate]
    | cons next columns =>
      rw [List.map_cons, List.map_cons, List.intercalate_cons_cons, columnText, List.leftpad,
        List.append_assoc, List.append_assoc, List.append_assoc,
        Words.words_replicate_append isSpace_blank, List.singleton_append,
        Words.words_append_space isWord isSpace_blank, ← List.map_cons, inductionHypothesis others]
      rfl

def Socket.row (socket : Socket) : ProcNetRow where
  localAddress := addressText socket.local_.address.plain
  localPort := some socket.local_.port.toNat
  remoteAddress := addressText socket.remote.address.plain
  remotePort := some socket.remote.port.toNat
  state := numeral 16 2 socket.state.toNat
  uid := some socket.uid
  inode := some socket.inode

theorem parseInt_port (port : UInt16) :
    parseInt 16 (numeral 16 4 port.toNat) = some (port.toNat : ℤ) := by
  have small : port.toNat < 16 ^ 4 := port.toNat_lt
  rw [parseInt_numeral (by decide) (by decide) (by decide), Nat.mod_eq_of_lt small]

/-- A line of a socket is read as what it was made of. -/
theorem parseLine_socket (socket : Socket) (padding : ℕ) :
    parseLine (socket.line padding) = some socket.row := by
  have isWords : splitSpaces (socket.line padding) = socket.columns.map Prod.snd := by
    rw [splitSpaces, Socket.line, words_columns padding (isWord_columns socket)]
    rfl
  have many : ¬ (socket.columns.map Prod.snd).length < 8 := by
    rw [Socket.columns, List.map_append, List.length_append, List.length_map]
    exact not_lt.mpr (le_add_right (show 8 ≤ 10 by decide))
  have isLocal : (socket.columns.map Prod.snd).getD 1 [] = socket.local_.column := rfl
  have isRemote : (socket.columns.map Prod.snd).getD 2 [] = socket.remote.column := rfl
  have isState : (socket.columns.map Prod.snd).getD 3 [] = numeral 16 2 socket.state.toNat := rfl
  have isUid : (socket.columns.map Prod.snd).getD 7 [] = decimal socket.uid := rfl
  have isInode : (socket.columns.map Prod.snd).getD 9 (text "0") = decimal socket.inode := rfl
  have present : ¬ (socket.local_.address.hex = [] ∨ numeral 16 4 socket.local_.port.toNat = [] ∨
      socket.remote.address.hex = [] ∨ numeral 16 4 socket.remote.port.toNat = []) := by
    rw [not_or, not_or, not_or]
    exact ⟨hex_ne_nil _, numeral_ne_nil (by decide) _, hex_ne_nil _, numeral_ne_nil (by decide) _⟩
  rw [parseLine, isWords, if_neg many, isLocal, isRemote, split_column, split_column]
  refine (if_neg present).trans ?_
  rw [isState, isUid, isInode, decodeProcAddress_hex, decodeProcAddress_hex, parseInt_port,
    parseInt_port, parseInt_decimal, parseInt_decimal, Socket.row]

theorem parseLine_eq_some {line : Units} {row : ProcNetRow} (isRow : parseLine line = some row) :
    HasPort ((splitSpaces line).getD 1 []) ∧ HasPort ((splitSpaces line).getD 2 []) ∧
      row.inode = parseInt 10 ((splitSpaces line).getD 9 (text "0")) := by
  rw [parseLine] at isRow
  split at isRow
  · cases isRow
  split at isRow
  · next la lp laRest ra rp raRest isLocal isRemote =>
    split at isRow
    · cases isRow
    · next present =>
      rw [not_or, not_or, not_or] at present
      obtain rfl := Option.some.inj isRow
      exact ⟨⟨la, lp, laRest, isLocal, present.1, present.2.1⟩,
        ⟨ra, rp, raRest, isRemote, present.2.2⟩, rfl⟩
  · cases isRow

/-- What is read of a line without the columns of a socket has no owner. -/
theorem inode_of_malformed {line : Units} (isMalformed : Malformed line) {row : ProcNetRow}
    (isRow : parseLine line = some row) : row.inode = some 0 := by
  obtain ⟨hasLocal, hasRemote, isInode⟩ := parseLine_eq_some isRow
  rcases isMalformed with few | noLocal | noRemote
  · rw [isInode, List.getD_eq_getElem?_getD, List.getElem?_eq_none (Nat.le_of_lt_succ few)]
    decide
  · exact absurd hasLocal noLocal
  · exact absurd hasRemote noRemote

/-! ### Which sockets count -/

/-- The socket is established and owned, from the peer to the server. -/
def Socket.isOtherEnd (peer : Peer) (peerPort serverPort : ℕ) (server : Option Peer)
    (socket : Socket) : Bool :=
  socket.state = 1 && socket.inode ≠ 0 && socket.local_.address.plain = peer.address &&
    socket.local_.port.toNat = peerPort && socket.remote.port.toNat = serverPort &&
      match server with
      | some known => socket.remote.address.plain = known.address
      | none => IsLoopback socket.remote.address.plain

theorem isHit_iff {want : Units} {peerPort serverPort : ℕ} {dest : Option Units}
    {row : ProcNetRow} : isHit want peerPort serverPort dest row = true ↔
      row.state = text "01" ∧ row.inode ≠ some 0 ∧ row.localAddress = want ∧
        row.localPort = some ↑peerPort ∧ row.remotePort = some ↑serverPort ∧
          (match dest with
            | none | some [] => isLoopbackAddress row.remoteAddress
            | some dest => decide (row.remoteAddress = dest)) = true := by
  rw [isHit.eq_def]
  split
  · next unowned =>
    refine iff_of_false Bool.false_ne_true fun holds => ?_
    rcases unowned with other | noOwner
    · exact other holds.1
    · exact holds.2.1 noOwner
  · next owned =>
    rw [not_or, not_not] at owned
    split
    · next elsewhere =>
      refine iff_of_false Bool.false_ne_true fun holds => ?_
      rcases elsewhere with other | other | other
      · exact other holds.2.2.1
      · exact other holds.2.2.2.1
      · exact other holds.2.2.2.2.1
    · next here =>
      rw [not_or, not_or, not_not, not_not, not_not] at here
      exact ⟨fun remote => ⟨owned.1, owned.2, here.1, here.2.1, here.2.2, remote⟩,
        fun holds => holds.2.2.2.2.2⟩

theorem state_eq_iff (state : UInt8) : numeral 16 2 state.toNat = text "01" ↔ state = 1 := by
  have one : text "01" = numeral 16 2 1 := by decide
  refine ⟨fun same => ?_, fun same => by rw [same]; decide⟩
  have read := congrArg (parseInt 16) (same.trans one)
  rw [parseInt_numeral (by decide) (by decide) (by decide),
    parseInt_numeral (by decide) (by decide) (by decide), Option.some_inj, Int.ofNat_inj,
    Nat.mod_eq_of_lt (show state.toNat < 16 ^ 2 from state.toNat_lt)] at read
  exact UInt8.toNat_inj.mp read

theorem addressText_ne_nil (peer : Peer) : addressText peer.address ≠ [] := by
  cases peer with
  | ipv4 word => exact List.ne_nil_of_mem (dot_mem_dotted word)
  | mapped spelling isPrefix word => exact List.ne_nil_of_mem (dot_mem_dotted word)
  | loopback6 =>
    rw [Peer.address, addressText_loopback6]
    decide

/-- The remote end that the code looks for. -/
theorem remote_iff (server : Option Peer) (address : Address) :
    (match (server.map Peer.text).map dropMapped with
      | none | some [] => isLoopbackAddress (addressText address)
      | some dest => decide (addressText address = dest)) =
    match server with
      | some known => decide (address = known.address)
      | none => decide (IsLoopback address) := by
  cases server with
  | none => exact isLoopbackAddress_iff address
  | some known =>
    rw [Option.map_some, Option.map_some, dropMapped_text]
    obtain ⟨unit, rest, isText⟩ := List.exists_cons_of_ne_nil (addressText_ne_nil known)
    rw [isText]
    refine decide_eq_decide.mpr ?_
    rw [← isText]
    exact addressText_eq_iff address known

theorem isHit_row (peer : Peer) (peerPort serverPort : ℕ) (server : Option Peer) (socket : Socket) :
    isHit (dropMapped peer.text) peerPort serverPort ((server.map Peer.text).map dropMapped)
      socket.row = socket.isOtherEnd peer peerPort serverPort server := by
  have owner : (some (socket.inode : ℤ) ≠ some 0) ↔ socket.inode ≠ 0 := by
    rw [Ne, Option.some_inj, Int.natCast_eq_zero]
  have port (own : UInt16) (other : ℕ) : (some (own.toNat : ℤ) = some ↑other) ↔
      own.toNat = other := by rw [Option.some_inj, Int.ofNat_inj]
  rw [Bool.eq_iff_iff, isHit_iff, Socket.row, Socket.isOtherEnd.eq_def, dropMapped_text]
  dsimp only
  rw [state_eq_iff, owner, addressText_eq_iff, port, port, remote_iff]
  simp only [Bool.and_eq_true, decide_eq_true_iff, and_assoc]

/-! ### Whole tables -/

theorem not_newline_of_word {word : Units} (isWord : Words.IsWord isSpace word) : newline ∉ word :=
  fun member => Bool.false_ne_true ((isWord.2 newline member).symm.trans (by decide))

theorem newline_not_mem_line (socket : Socket) (padding : ℕ) : newline ∉ socket.line padding := by
  have notBlank : newline ≠ blank := by decide
  intro member
  rcases List.mem_append.mp member with inColumns | inPadding
  · rcases Words.mem_intercalate inColumns with same | ⟨column, isColumn, inside⟩
    · exact notBlank same
    · obtain ⟨column, among, rfl⟩ := List.mem_map.mp isColumn
      rcases List.mem_append.mp inside with inBlanks | inWord
      · exact notBlank (List.eq_of_mem_replicate inBlanks)
      · exact not_newline_of_word (isWord_columns socket column among) inWord
  · exact notBlank (List.eq_of_mem_replicate inPadding)

theorem lines_text (table : SocketTable) :
    (Lines.split newline table.text).drop 1 = table.lines.map TableLine.text := by
  have unbroken : Lines.Unbroken newline (table.header :: table.lines.map TableLine.text) := by
    refine List.forall_mem_cons.mpr ⟨table.oneLine, fun line member => ?_⟩
    obtain ⟨line, -, rfl⟩ := List.mem_map.mp member
    cases line with
    | socket held padding => exact newline_not_mem_line held padding
    | malformed line oneLine isMalformed => exact oneLine
  rw [SocketTable.text, Lines.split_intercalate _ (List.cons_ne_nil _ _) unbroken]
  rfl

section Hits

variable (peer : Peer) (peerPort serverPort : ℕ) (server : Option Peer)

/-- Only the sockets of a table can be hits. -/
theorem hits_lines (lines : List TableLine) :
    ((lines.map TableLine.text).filterMap parseLine).filter
        (isHit (dropMapped peer.text) peerPort serverPort ((server.map Peer.text).map dropMapped)) =
      ((lines.flatMap TableLine.sockets).filter
        (Socket.isOtherEnd peer peerPort serverPort server)).map Socket.row := by
  induction lines with
  | nil => rfl
  | cons line lines inductionHypothesis =>
    rw [List.map_cons, List.flatMap_cons, List.filter_append, List.map_append,
      ← inductionHypothesis]
    cases line with
    | socket held padding =>
      rw [TableLine.text, List.filterMap_cons_some (parseLine_socket held padding),
        List.filter_cons, isHit_row, TableLine.sockets, List.filter_singleton]
      cases held.isOtherEnd peer peerPort serverPort server <;> rfl
    | malformed line oneLine isMalformed =>
      rw [TableLine.text, TableLine.sockets, List.filter_nil, List.map_nil, List.nil_append]
      cases isRow : parseLine line with
      | none => rw [List.filterMap_cons_none isRow]
      | some row =>
        rw [List.filterMap_cons_some isRow, List.filter_cons_of_neg]
        exact fun isHit => (isHit_iff.mp isHit).2.1 (inode_of_malformed isMalformed isRow)

theorem hits_tables (tables : List SocketTable) :
    ((tables.map SocketTable.text).flatMap parseProcNetTcp).filter
        (isHit (dropMapped peer.text) peerPort serverPort ((server.map Peer.text).map dropMapped)) =
      ((tables.flatMap SocketTable.sockets).filter
        (Socket.isOtherEnd peer peerPort serverPort server)).map Socket.row := by
  induction tables with
  | nil => rfl
  | cons table tables inductionHypothesis =>
    rw [List.map_cons, List.flatMap_cons, List.flatMap_cons, List.filter_append, List.filter_append,
      List.map_append, inductionHypothesis, parseProcNetTcp, lines_text, hits_lines,
      SocketTable.sockets]

end Hits

theorem mapM_some (texts : List Units) : (texts.map some).mapM id = some texts := by
  induction texts with
  | nil => rfl
  | cons first texts inductionHypothesis =>
    rw [List.map_cons, List.mapM_cons, inductionHypothesis]
    rfl

/-- Exactly one socket is the other end, and its user is returned. -/
def onlyUid : List Socket → Option (Option ℤ)
  | [socket] => some (some socket.uid)
  | _ => none

/-- Of tables with sockets and any other lines, only the sockets count that are established and
owned and lead from the peer to the server. -/
theorem linuxPeerUid_exact (peer : Peer) (peerPort serverPort : ℕ) (server : Option Peer)
    (tables : List SocketTable) :
    linuxPeerUid peer.text peerPort serverPort (server.map Peer.text)
        (tables.map fun table => some table.text) =
      some (onlyUid ((tables.flatMap SocketTable.sockets).filter
        (Socket.isOtherEnd peer peerPort serverPort server))) := by
  have readable : (tables.map fun table => some table.text).mapM id =
      some (tables.map SocketTable.text) := by
    rw [← mapM_some, List.map_map]
    rfl
  rw [linuxPeerUid, readable]
  dsimp only [Option.bind_eq_bind, Option.bind_some]
  rw [hits_tables]
  rcases (tables.flatMap SocketTable.sockets).filter
    (Socket.isOtherEnd peer peerPort serverPort server) with _ | ⟨first, _ | ⟨second, others⟩⟩
  · rfl
  · rfl
  · rfl

/-! ### Other addresses and other lines -/

def plainColumn (word : Units) (isWord : (!word.isEmpty && word.all (!isSpace ·)) = true) :
    Column :=
  ⟨word, by
    rw [Bool.and_eq_true, List.all_eq_true] at isWord
    refine ⟨fun empty => ?_, fun unit member => ?_⟩
    · rw [empty] at isWord
      exact Bool.false_ne_true isWord.1
    · exact Bool.not_eq_true' _ ▸ isWord.2 unit member⟩

/-- A connection from `2001:db8::1` to `2001:db8::2`. -/
def fullSocket : Socket where
  slot := plainColumn (text "0:") (by decide)
  local_ := ⟨.ipv6 ⟨32, 1, 13, 184⟩ ⟨0, 0, 0, 0⟩ ⟨0, 0, 0, 0⟩ ⟨0, 0, 0, 1⟩, 50000⟩
  remote := ⟨.ipv6 ⟨32, 1, 13, 184⟩ ⟨0, 0, 0, 0⟩ ⟨0, 0, 0, 0⟩ ⟨0, 0, 0, 2⟩, 46897⟩
  state := 1
  queues := plainColumn (text "00000000:00000000") (by decide)
  timer := plainColumn (text "00:00000000") (by decide)
  retransmits := plainColumn (text "00000000") (by decide)
  uid := 1000
  timeout := plainColumn (text "0") (by decide)
  inode := 99
  more := []

def fullTable : SocketTable where
  header := text "  sl  local_address rem_address"
  oneLine := by decide
  lines := [.socket fullSocket 0]

/-- An address of sixteen bytes is no peer, even if a single socket has it; and a line that the
kernel does not write can be one. -/
theorem linuxPeerUid_others :
    fullTable.text = text ("  sl  local_address rem_address\n   0: " ++
      "B80D0120000000000000000001000000:C350 B80D0120000000000000000002000000:B731 01 " ++
      "00000000:00000000 00:00000000 00000000  1000        0 99") ∧
    linuxPeerUid (text "2001:db8::1") 50000 46897 (some (text "2001:db8::2"))
      [some fullTable.text] = some none ∧
    linuxPeerUid (text "127.0.0.1") 50000 46897 none
      [some (text "sl\n? 0100007F:C350! +100007F:B731! 01 ? ? ? 1000! ? 99!")] =
      some (some (some 1000)) := by
  refine ⟨?_, by decide +kernel, by decide +kernel⟩
  unfold text
  rewrite [String.toList_append, String.toList_append]
  refine Eq.trans ?_ (congrArg codeUnits (congrArg₂ (· ++ ·)
    (congrArg₂ (· ++ ·) String.toList_ofList String.toList_ofList) String.toList_ofList).symm)
  decide +kernel

end AiSwitcher.Guard
