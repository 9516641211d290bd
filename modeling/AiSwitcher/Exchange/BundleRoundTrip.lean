/-
This file proves that reading a written bundle archive gives the bundle back, unless its
payloads have a file of the manifest's name: the writer then writes two entries of that name,
which the reader refuses. It also proves what every accepted archive has: safe paths that stay
distinct in lower case, and payloads with the size and the digest that the manifest lists.

The round trip is read off entry by entry. Every check of the reader is shown to hold of the
header that the writer made: the fields of the header are read back with the lemmas about
patched records, the numbers with those about octal texts.
-/

import AiSwitcher.Exchange.Bundle
import Mathlib.Algebra.Order.BigOperators.Group.List
import Mathlib.Data.Nat.Digits.Lemmas

namespace AiSwitcher.Exchange

open JavaScript
open Utf8 (Bytes)
open Fields (field patch patchAll Clear)

namespace Tar

/-! ### Octal texts -/

/-- A digit of an octal text. -/
def IsOctal (character : Char) : Prop :=
  48 ≤ character.toNat ∧ character.toNat < 56

theorem toNat_digit {digit : Nat} (small : digit < 8) :
    (Char.ofNat (48 + digit)).toNat = 48 + digit := by
  interval_cases digit <;> rfl

theorem isOctal_of_mem {width value : Nat} {character : Char}
    (member : character ∈ octalText width value) : IsOctal character := by
  rw [octalText, List.leftpad, List.mem_append] at member
  rcases member with member | member
  · rw [List.eq_of_mem_replicate member]
    exact ⟨by decide, by decide⟩
  · obtain ⟨digit, isDigit, rfl⟩ := List.mem_map.1 member
    have small := Nat.digits_lt_base (by decide) (List.mem_reverse.1 isDigit)
    rw [IsOctal, toNat_digit small]
    omega

theorem length_octalText {width value : Nat} (fits : value < 8 ^ width) :
    (octalText width value).length = width := by
  have short := (Nat.digits_length_le_iff (by decide) value).2 fits
  simp [octalText, List.leftpad]
  omega

theorem length_octalText_ge (width value : Nat) : width ≤ (octalText width value).length := by
  simp [octalText, List.leftpad]
  omega

theorem lt_of_length_octalText {width value : Nat}
    (fits : (octalText width value).length ≤ width) : value < 8 ^ width := by
  refine (Nat.digits_length_le_iff (by decide) value).1 ?_
  simp [octalText, List.leftpad] at fits
  omega

theorem length_encode_octalText (width value : Nat) :
    (Utf8.encode (octalText width value)).length = (octalText width value).length :=
  Utf8.length_encode_ascii fun _ member => by
    have isOctal := (isOctal_of_mem member).2
    omega

theorem fromOctal_append (first second : List Char) :
    fromOctal (first ++ second) =
      second.foldl (fun value digit => 8 * value + (digit.toNat - 48)) (fromOctal first) :=
  List.foldl_append

theorem fromOctal_replicate (count : Nat) : fromOctal (.replicate count '0') = 0 := by
  induction count with
  | zero => rfl
  | succ count inductionHypothesis =>
    rw [List.replicate_succ', fromOctal_append, inductionHypothesis]
    rfl

/-- Reading an octal text gives the number that was written. -/
theorem fromOctal_octalText (width value : Nat) : fromOctal (octalText width value) = value := by
  rw [octalText, List.leftpad, fromOctal_append, fromOctal_replicate, List.foldl_map,
    List.foldl_reverse]
  calc
    List.foldr (fun digit value => 8 * value + ((Char.ofNat (48 + digit)).toNat - 48)) 0
          (Nat.digits 8 value)
        = List.foldr (fun digit value => digit + 8 * value) 0 (Nat.digits 8 value) := by
      refine List.foldr_ext _ _ 0 fun digit isDigit value => ?_
      rw [toNat_digit (Nat.digits_lt_base (by decide) isDigit)]
      omega
    _ = Nat.ofDigits 8 (Nat.digits 8 value) := by rw [Nat.ofDigits_eq_foldr]; rfl
    _ = value := Nat.ofDigits_digits 8 value

theorem fromUtf8_encode (text : List Char) : fromUtf8 (Utf8.encode text) = some text := by
  simp [fromUtf8, Utf8.decodeFrom_encode]

theorem takeWhile_zero {bytes rest : Bytes} (noZero : (0 : UInt8) ∉ bytes)
    (ends : rest = [] ∨ rest.head? = some 0) : (bytes ++ rest).takeWhile (· != 0) = bytes := by
  have all : ∀ byte ∈ bytes, (byte != 0) = true := by
    intro byte member
    simpa using fun isZero : byte = 0 => noZero (isZero ▸ member)
  rw [List.takeWhile_append_of_pos all]
  rcases ends with rfl | isZero
  · rw [List.takeWhile_nil, List.append_nil]
  · obtain ⟨tail, rfl⟩ := List.head?_eq_some_iff.1 isZero
    rw [List.takeWhile_cons_of_neg (by simp), List.append_nil]

theorem not_isRustWhitespace {character : Char} (isOctal : IsOctal character) :
    isRustWhitespace character = false := by
  unfold IsOctal at isOctal
  simp only [isRustWhitespace, Bool.or_eq_false_iff, Bool.and_eq_false_iff, decide_eq_false_iff_not,
    List.contains_eq_mem, List.mem_cons, List.not_mem_nil, or_false]
  omega

theorem trimRust_of_isOctal {text : List Char} (isOctal : ∀ character ∈ text, IsOctal character) :
    trimRust text = text := by
  have front {text : List Char} (isOctal : ∀ character ∈ text, IsOctal character) :
      text.dropWhile isRustWhitespace = text := by
    cases text with
    | nil => rfl
    | cons character text =>
      exact List.dropWhile_cons_of_neg
        (by simp [not_isRustWhitespace (isOctal character List.mem_cons_self)])
  rw [trimRust, front isOctal, front fun character member => isOctal character (by simpa using member),
    List.reverse_reverse]

/-- A numeric field that was written is read back. -/
theorem octal_octalText {width value : Nat} {rest : Bytes} (positive : 0 < width)
    (small : value < 2 ^ 64) (ends : rest.head? = some 0) :
    octal (Utf8.encode (octalText width value) ++ rest) = .ok value := by
  have noZero : (0 : UInt8) ∉ Utf8.encode (octalText width value) := by
    refine Utf8.ascii_not_mem_encode (show 0 < 128 by decide) fun character member isZero => ?_
    have isOctal := (isOctal_of_mem member).1
    omega
  have nonempty : octalText width value ≠ [] := by
    have long := length_octalText_ge width value
    intro isNil
    rw [isNil, List.length_nil] at long
    omega
  have digits : ((octalText width value).all fun digit => '0' ≤ digit && digit ≤ '7') = true := by
    refine List.all_eq_true.2 fun character member => ?_
    obtain ⟨low, high⟩ := isOctal_of_mem member
    have below : '0' ≤ character := low
    have above : character ≤ '7' := Nat.le_of_lt_succ high
    simp [below, above]
  rw [octal, takeWhile_zero noZero (.inr ends), fromUtf8_encode]
  simp only [trimRust_of_isOctal fun _ => isOctal_of_mem, digits, fromOctal_octalText, ensure, small]
  simp [nonempty]
  rfl

/-! ### Headers -/

theorem writeOctal_eq_ok {header result : Bytes} {start width value : Nat} :
    writeOctal header start (width + 1) value = .ok result ↔
      value < 8 ^ width ∧
        result = patch header start (Utf8.encode (octalText width value) ++ [0]) := by
  have room : (Utf8.encode (octalText width value) ++ [0]).length ≤ width + 1 ↔
      value < 8 ^ width := by
    rw [List.length_append, length_encode_octalText, List.length_singleton]
    constructor
    · exact fun fits => lt_of_length_octalText (by omega)
    · exact fun fits => by rw [length_octalText fits]
  simp only [writeOctal, Nat.add_sub_cancel, ensure_bind_eq_ok, decide_eq_true_eq, room]
  exact and_congr_right fun _ => ⟨fun same => (Except.ok.inj same).symm, fun same => same ▸ rfl⟩

/-- The fields of a header, in the order in which they are written. -/
def headerFields (name start : Bytes) (size : Nat) : List (Nat × Bytes) :=
  [(0, name), (345, start), (100, Utf8.encode (octalText 7 0o600) ++ [0]),
    (108, Utf8.encode (octalText 7 0) ++ [0]), (116, Utf8.encode (octalText 7 0) ++ [0]),
    (124, Utf8.encode (octalText 11 size) ++ [0]), (136, Utf8.encode (octalText 11 0) ++ [0]),
    (148, .replicate 8 32), (156, [48]), (257, bytesOf "ustar" ++ [0]), (263, bytesOf "00")]

/-- A header without its checksum. -/
def plainHeader (name start : Bytes) (size : Nat) : Bytes :=
  patchAll (.replicate block 0) (headerFields name start size)

def checksumText (header : Bytes) : Bytes :=
  Utf8.encode (octalText 6 (header.map (·.toNat)).sum) ++ [0, 32]

/-- The header as it is written. -/
def checkedHeader (name start : Bytes) (size : Nat) : Bytes :=
  patch (plainHeader name start size) 148 (checksumText (plainHeader name start size))

theorem tarHeader_eq_ok {path : String} {size : Nat} {header : Bytes}
    (written : tarHeader path size = .ok header) : ∃ name start,
      splitPath path = .ok (name, start) ∧ size < 8 ^ 11 ∧
        header = checkedHeader name start size := by
  simp only [tarHeader, bind_eq_ok] at written
  obtain ⟨⟨name, start⟩, isSplit, mode, isMode, user, isUser, group, isGroup, sized, isSized, timed,
    isTimed, isHeader⟩ := written
  have first := (writeOctal_eq_ok.1 isMode).2
  have second := (writeOctal_eq_ok.1 isUser).2
  have third := (writeOctal_eq_ok.1 isGroup).2
  obtain ⟨fits, fourth⟩ := writeOctal_eq_ok.1 isSized
  have fifth := (writeOctal_eq_ok.1 isTimed).2
  refine ⟨name, start, isSplit, fits, ?_⟩
  rw [← Except.ok.inj isHeader, fifth, fourth, third, second, first]
  rfl

/-- A name and a prefix that fit in their fields. -/
structure Fitting (name start : Bytes) (size : Nat) : Prop where
  name : name.length ≤ 100
  start : start.length ≤ 155
  size : size < 8 ^ 11

section Headers

variable {name start : Bytes} {size : Nat}

theorem length_numeric {width value : Nat} (fits : value < 8 ^ width) :
    (Utf8.encode (octalText width value) ++ [0]).length = width + 1 := by
  rw [List.length_append, length_encode_octalText, length_octalText fits, List.length_singleton]

theorem Fitting.fit (fitting : Fitting name start size) :
    ∀ patched ∈ headerFields name start size, patched.1 + patched.2.length ≤
      (List.replicate block (0 : UInt8)).length := by
  have nameFits := fitting.name
  have startFits := fitting.start
  have magic : (bytesOf "ustar" ++ [0]).length = 6 := rfl
  have version : (bytesOf "00").length = 2 := rfl
  simp only [headerFields, List.forall_mem_cons, length_numeric (show 0o600 < 8 ^ 7 by decide),
    length_numeric (show 0 < 8 ^ 7 by decide), length_numeric fitting.size,
    length_numeric (show 0 < 8 ^ 11 by decide), List.length_replicate, block, magic, version,
    List.length_cons, List.length_nil, List.not_mem_nil, false_imp_iff, implies_true, and_true]
  omega

theorem Fitting.apart (fitting : Fitting name start size) :
    (headerFields name start size).Pairwise fun first second =>
      Clear first.1 first.2.length second := by
  have nameFits := fitting.name
  have startFits := fitting.start
  have magic : (bytesOf "ustar" ++ [0]).length = 6 := rfl
  have version : (bytesOf "00").length = 2 := rfl
  simp only [headerFields, List.pairwise_cons, List.forall_mem_cons, Clear,
    length_numeric (show 0o600 < 8 ^ 7 by decide), length_numeric (show 0 < 8 ^ 7 by decide),
    length_numeric fitting.size, length_numeric (show 0 < 8 ^ 11 by decide), List.length_replicate,
    magic, version, List.length_cons, List.length_nil, List.not_mem_nil, false_imp_iff,
    implies_true, and_true, List.Pairwise.nil]
  omega

theorem Fitting.length_plainHeader (fitting : Fitting name start size) :
    (plainHeader name start size).length = block := by
  rw [plainHeader, Fields.length_patchAll fitting.fit, List.length_replicate]

/-- A field of the header without its checksum. -/
theorem Fitting.field_plainHeader (fitting : Fitting name start size) {patched : Nat × Bytes}
    (member : patched ∈ headerFields name start size) :
    field (plainHeader name start size) patched.1 patched.2.length = patched.2 :=
  Fields.field_patchAll_of_mem fitting.fit fitting.apart member

/-- What is behind the name, in the link and behind the prefix is zero. -/
theorem Fitting.zeros_plainHeader (fitting : Fitting name start size) {place count : Nat}
    (inside : place + count ≤ block)
    (between : name.length ≤ place ∧ place + count ≤ 100 ∨ 157 ≤ place ∧ place + count ≤ 257 ∨
      345 + start.length ≤ place) :
    field (plainHeader name start size) place count = .replicate count 0 := by
  have nameFits := fitting.name
  have startFits := fitting.start
  have magic : (bytesOf "ustar" ++ [0]).length = 6 := rfl
  have version : (bytesOf "00").length = 2 := rfl
  have clear : ∀ patched ∈ headerFields name start size, Clear place count patched := by
    simp only [headerFields, List.forall_mem_cons, Clear,
      length_numeric (show 0o600 < 8 ^ 7 by decide), length_numeric (show 0 < 8 ^ 7 by decide),
      length_numeric fitting.size, length_numeric (show 0 < 8 ^ 11 by decide),
      List.length_replicate, magic, version, List.length_cons, List.length_nil, List.not_mem_nil,
      false_imp_iff, implies_true, and_true]
    omega
  rw [plainHeader, Fields.field_patchAll_of_clear fitting.fit clear, Fields.field_replicate inside]

theorem Fitting.name_plainHeader (fitting : Fitting name start size) :
    field (plainHeader name start size) 0 100 = name ++ .replicate (100 - name.length) 0 := by
  have nameFits := fitting.name
  have whole : 100 = name.length + (100 - name.length) := by omega
  have own := fitting.field_plainHeader (show (0, name) ∈ _ by simp [headerFields])
  have behind : field (plainHeader name start size) name.length (100 - name.length) = _ :=
    fitting.zeros_plainHeader (by simp only [block]; omega) (by omega)
  rw [whole, Fields.field_add, own, Nat.zero_add, behind, ← whole]

theorem Fitting.start_plainHeader (fitting : Fitting name start size) :
    field (plainHeader name start size) 345 155 = start ++ .replicate (155 - start.length) 0 := by
  have startFits := fitting.start
  have whole : 155 = start.length + (155 - start.length) := by omega
  have own := fitting.field_plainHeader (show (345, start) ∈ _ by simp [headerFields])
  have behind : field (plainHeader name start size) (345 + start.length) (155 - start.length) = _ :=
    fitting.zeros_plainHeader (by simp only [block]; omega) (.inr (.inr (Nat.le_refl _)))
  rw [whole, Fields.field_add, own, behind, ← whole]

/-! #### The checksum -/

theorem sum_toNat_le (bytes : Bytes) : (bytes.map (·.toNat)).sum ≤ bytes.length * 255 := by
  have bound : ∀ value ∈ bytes.map (·.toNat), value ≤ 255 := by
    intro value member
    obtain ⟨byte, -, rfl⟩ := List.mem_map.1 member
    exact Nat.le_of_lt_succ byte.toNat_lt
  simpa using List.sum_le_card_nsmul _ _ bound

/-- The reader's sum is the one of the header with spaces in its checksum field. -/
theorem headerChecksum_eq {header : Bytes} (whole : header.length = block) :
    headerChecksum header = ((patch header 148 (.replicate 8 32)).map (·.toNat)).sum := by
  rw [headerChecksum]
  congr 1
  refine List.ext_getElem? fun index => ?_
  have inside : 148 ≤ header.length := by rw [whole]; decide
  rw [List.getElem?_map, List.getElem?_zipIdx, List.getElem?_map, Fields.getElem?_patch inside]
  simp only [List.length_replicate, Nat.zero_add]
  by_cases before : index < 148
  · rw [if_pos before]
    cases header[index]? with
    | none => rfl
    | some byte => simp [Nat.not_le.2 before]
  rw [if_neg before]
  by_cases within : index < 148 + 8
  · have present : index < header.length := by rw [whole]; simp only [block]; omega
    have space : (List.replicate 8 (32 : UInt8))[index - 148]? = some 32 := by
      rw [List.getElem?_replicate, if_pos (by omega)]
    rw [if_pos within, space, List.getElem?_eq_getElem present]
    simp [Nat.not_lt.1 before, within]
  · rw [if_neg within]
    cases header[index]? with
    | none => rfl
    | some byte => simp [within]

theorem Fitting.spaces_plainHeader (fitting : Fitting name start size) :
    patch (plainHeader name start size) 148 (.replicate 8 32) = plainHeader name start size := by
  have member : (148, List.replicate 8 32) ∈ headerFields name start size := by
    simp [headerFields]
  have fits : 148 + (List.replicate 8 (32 : UInt8)).length ≤ (plainHeader name start size).length := by
    rw [fitting.length_plainHeader, List.length_replicate]
    decide
  have own := fitting.field_plainHeader member
  exact Fields.patch_of_field fits own

theorem Fitting.checksum_lt (fitting : Fitting name start size) :
    ((plainHeader name start size).map (·.toNat)).sum < 8 ^ 6 := by
  have bound := sum_toNat_le (plainHeader name start size)
  rw [fitting.length_plainHeader] at bound
  exact Nat.lt_of_le_of_lt bound (by decide)

theorem Fitting.length_checksumText (fitting : Fitting name start size) :
    (checksumText (plainHeader name start size)).length = 8 := by
  rw [checksumText, List.length_append, length_encode_octalText,
    length_octalText fitting.checksum_lt]
  rfl

theorem Fitting.checksum_fits (fitting : Fitting name start size) :
    148 + (checksumText (plainHeader name start size)).length ≤
      (plainHeader name start size).length := by
  rw [fitting.length_checksumText, fitting.length_plainHeader]
  decide

theorem Fitting.length_checkedHeader (fitting : Fitting name start size) :
    (checkedHeader name start size).length = block := by
  rw [checkedHeader, Fields.length_patch fitting.checksum_fits, fitting.length_plainHeader]

/-- The checksum changes no other field. -/
theorem Fitting.field_checkedHeader (fitting : Fitting name start size) {place count : Nat}
    (apart : place + count ≤ 148 ∨ 156 ≤ place) :
    field (checkedHeader name start size) place count =
      field (plainHeader name start size) place count :=
  Fields.field_patch_of_disjoint fitting.checksum_fits
    (by rw [fitting.length_checksumText]; exact apart)

theorem Fitting.headerChecksum (fitting : Fitting name start size) :
    headerChecksum (checkedHeader name start size) =
      ((plainHeader name start size).map (·.toNat)).sum := by
  rw [headerChecksum_eq fitting.length_checkedHeader, checkedHeader,
    Fields.patch_patch fitting.checksum_fits
      (by rw [fitting.length_checksumText, List.length_replicate]), fitting.spaces_plainHeader]

theorem Fitting.octal_checksum (fitting : Fitting name start size) :
    octal (field (checkedHeader name start size) 148 8) =
      .ok ((plainHeader name start size).map (·.toNat)).sum := by
  have small := fitting.checksum_lt
  rw [checkedHeader, Fields.field_patch_exact fitting.checksum_fits fitting.length_checksumText,
    checksumText]
  exact octal_octalText (by decide) (Nat.lt_trans small (by decide)) rfl

theorem Fitting.octal_size (fitting : Fitting name start size) :
    octal (field (checkedHeader name start size) 124 12) = .ok size := by
  have own := fitting.field_plainHeader
    (show (124, Utf8.encode (octalText 11 size) ++ [0]) ∈ _ by simp [headerFields])
  rw [length_numeric fitting.size] at own
  rw [fitting.field_checkedHeader (by decide), own]
  exact octal_octalText (by decide) (Nat.lt_trans fitting.size (by decide)) rfl

/-! #### The path -/

theorem splitLastSlash_eq_some {text before behind : List Char}
    (isSplit : splitLastSlash text = some (before, behind)) : text = before ++ '/' :: behind := by
  induction text generalizing before with
  | nil => cases isSplit
  | cons character rest inductionHypothesis =>
    rw [splitLastSlash] at isSplit
    split at isSplit
    next earlier later isRest =>
      obtain ⟨rfl, rfl⟩ := Prod.mk.inj (Option.some.inj isSplit)
      rw [inductionHypothesis isRest, List.cons_append]
    next isRest =>
      split at isSplit
      next isSlash =>
        obtain ⟨rfl, rfl⟩ := Prod.mk.inj (Option.some.inj isSplit)
        rw [isSlash, List.nil_append]
      · cases isSplit

theorem fieldString_encode {text : List Char} {rest : Bytes}
    (noZero : ∀ character ∈ text, character.toNat ≠ 0) (ends : rest = [] ∨ rest.head? = some 0) :
    fieldString (Utf8.encode text ++ rest) = .ok (.ofList text) := by
  have absent := Utf8.ascii_not_mem_encode (show 0 < 128 by decide) noZero
  rw [fieldString, takeWhile_zero absent ends, fromUtf8_encode]

theorem replicate_zero_ends (count : Nat) :
    List.replicate count (0 : UInt8) = [] ∨ (List.replicate count (0 : UInt8)).head? = some 0 := by
  cases count with
  | zero => exact .inl rfl
  | succ count => exact .inr rfl

theorem splitPath_eq_ok {path : String} (safe : safeRelativePath path = true)
    (isSplit : splitPath path = .ok (name, start)) :
    name.length ≤ 100 ∧ start.length ≤ 155 ∧ ∃ nameText startText,
      name = Utf8.encode nameText ∧ start = Utf8.encode startText ∧
        (∀ character ∈ nameText, character.toNat ≠ 0) ∧
        (∀ character ∈ startText, character.toNat ≠ 0) ∧
        joinPath (.ofList startText) (.ofList nameText) = path := by
  have noZero : ∀ character ∈ path.toList, character.toNat ≠ 0 := by
    simp only [safeRelativePath, Bool.and_eq_true, Bool.not_eq_true', List.any_eq_false] at safe
    intro character member isZero
    simpa [isZero] using safe.1.2 character member
  rw [splitPath] at isSplit
  split at isSplit
  next short =>
    obtain ⟨rfl, rfl⟩ := Prod.mk.inj (Except.ok.inj isSplit)
    refine ⟨short, by simp, path.toList, [], rfl, rfl, noZero, by simp, ?_⟩
    simp [joinPath]
  · split at isSplit
    · cases isSplit
    next before behind isSlash =>
      simp only [ensure_bind_eq_ok, Bool.not_eq_true', Bool.or_eq_false_iff,
        decide_eq_false_iff_not, Nat.not_lt] at isSplit
      obtain ⟨⟨nameFits, startFits⟩, isOk⟩ := isSplit
      obtain ⟨rfl, rfl⟩ := Prod.mk.inj (Except.ok.inj isOk)
      have whole := splitLastSlash_eq_some isSlash
      rw [whole] at noZero
      refine ⟨nameFits, startFits, behind, before, rfl, rfl,
        fun character member => noZero character (by simp [member]),
        fun character member => noZero character (by simp [member]), ?_⟩
      have nonempty : before ≠ [] := by
        rintro rfl
        simp [safeRelativePath, startsWith, whole] at safe
      have rejoined : String.ofList before ++ "/" ++ String.ofList behind = path := by
        rw [← String.toList_inj]
        simp [whole]
      rw [joinPath, if_neg (by simpa using nonempty), rejoined]

theorem Fitting.type_checkedHeader (fitting : Fitting name start size) :
    field (checkedHeader name start size) 156 1 = [48] := by
  have own := fitting.field_plainHeader (show (156, [48]) ∈ _ by simp [headerFields])
  rwa [fitting.field_checkedHeader (by decide)]

theorem Fitting.magic_checkedHeader (fitting : Fitting name start size) :
    field (checkedHeader name start size) 257 6 = bytesOf "ustar" ++ [0] := by
  have own := fitting.field_plainHeader
    (show (257, bytesOf "ustar" ++ [0]) ∈ _ by simp [headerFields])
  rwa [fitting.field_checkedHeader (by decide)]

theorem Fitting.link_checkedHeader (fitting : Fitting name start size) :
    field (checkedHeader name start size) 157 100 = .replicate 100 0 := by
  rw [fitting.field_checkedHeader (by decide),
    fitting.zeros_plainHeader (by decide) (.inr (.inl (by decide)))]

theorem Fitting.name_checkedHeader (fitting : Fitting name start size) :
    field (checkedHeader name start size) 0 100 = name ++ .replicate (100 - name.length) 0 := by
  rw [fitting.field_checkedHeader (by decide), fitting.name_plainHeader]

theorem Fitting.start_checkedHeader (fitting : Fitting name start size) :
    field (checkedHeader name start size) 345 155 = start ++ .replicate (155 - start.length) 0 := by
  rw [fitting.field_checkedHeader (by decide), fitting.start_plainHeader]

theorem Fitting.nonzero (fitting : Fitting name start size) :
    (checkedHeader name start size).all (· == 0) = false := by
  have member : (48 : UInt8) ∈ field (checkedHeader name start size) 156 1 := by
    rw [fitting.type_checkedHeader, List.mem_singleton]
  exact List.all_eq_false.2 ⟨48, List.mem_of_mem_drop (List.mem_of_mem_take member), by decide⟩

theorem all_replicate_zero (count : Nat) :
    (List.replicate count (0 : UInt8)).all (· == 0) = true := by
  simp

theorem Fitting.checkHeader (fitting : Fitting name start size) :
    checkHeader (checkedHeader name start size) = .ok () := by
  have readMagic : fieldString (bytesOf "ustar" ++ [0]) = .ok "ustar" := fieldString_encode
    (show ∀ character ∈ "ustar".toList, character.toNat ≠ 0 by simp) (.inr rfl)
  have isMagic : checkMagic (bytesOf "ustar" ++ [0]) = .ok () := by
    rw [checkMagic, if_neg (by decide), readMagic]
    rfl
  rw [Tar.checkHeader, fitting.octal_checksum, fitting.headerChecksum, fitting.magic_checkedHeader,
    fitting.type_checkedHeader, fitting.link_checkedHeader, isMagic, all_replicate_zero]
  simp [bind_eq_ok]

/-- The reader takes the path of a written header from it. -/
theorem Fitting.readPath (fitting : Fitting name start size) {nameText startText : List Char}
    (isName : name = Utf8.encode nameText) (isStart : start = Utf8.encode startText)
    (nameNoZero : ∀ character ∈ nameText, character.toNat ≠ 0)
    (startNoZero : ∀ character ∈ startText, character.toNat ≠ 0)
    (safe : safeRelativePath (joinPath (.ofList startText) (.ofList nameText)) = true) :
    readPath (checkedHeader name start size) =
      .ok (joinPath (.ofList startText) (.ofList nameText)) := by
  have readName : fieldString (name ++ .replicate (100 - name.length) 0) = .ok (.ofList nameText) := by
    rw [isName]
    exact fieldString_encode nameNoZero (replicate_zero_ends _)
  have readStart : fieldString (start ++ .replicate (155 - start.length) 0) =
      .ok (.ofList startText) := by
    rw [isStart]
    exact fieldString_encode startNoZero (replicate_zero_ends _)
  have nonempty : joinPath (.ofList startText) (.ofList nameText) ≠ "" := by
    intro isEmpty
    rw [isEmpty] at safe
    exact absurd safe (by decide)
  rw [Tar.readPath, fitting.checkHeader, fitting.name_checkedHeader, fitting.start_checkedHeader,
    readName, readStart]
  simp only [bind_eq_ok, ensure_eq_ok]
  simp [nonempty, safe]
  rfl

end Headers

/-- A header from which the reader takes this path and this size. -/
structure Readable (path : String) (size : Nat) (header : Bytes) : Prop where
  length : header.length = block
  nonzero : header.all (· == 0) = false
  readPath : readPath header = .ok path
  octal_size : octal (field header 124 12) = .ok size
  size_lt : size < 8 ^ 11

theorem readable_of_tarHeader {path : String} {size : Nat} {header : Bytes}
    (safe : safeRelativePath path = true) (written : tarHeader path size = .ok header) :
    Readable path size header := by
  obtain ⟨name, start, isSplit, fits, isHeader⟩ := tarHeader_eq_ok written
  obtain ⟨nameFits, startFits, nameText, startText, isName, isStart, nameNoZero, startNoZero,
    joined⟩ := splitPath_eq_ok safe isSplit
  have fitting : Fitting name start size := ⟨nameFits, startFits, fits⟩
  have isPath := fitting.readPath isName isStart nameNoZero startNoZero (joined ▸ safe)
  rw [joined] at isPath
  rw [isHeader]
  exact ⟨fitting.length_checkedHeader, fitting.nonzero, isPath, fitting.octal_size, fits⟩

/-! ### Entries -/

/-- The bytes of written entries. -/
inductive Entries : Members Bytes → Bytes → Prop
  | nil : Entries [] []
  | cons {path : String} {content header : Bytes} {files : Members Bytes} {rest : Bytes} :
      Readable path content.length header → Entries files rest →
        Entries ((path, content) :: files) (header ++ (content ++ (padding content ++ rest)))

theorem padded_eq (content : Bytes) :
    (content.length + (block - 1)) / block * block = content.length + (padding content).length := by
  simp only [padding, List.length_replicate, block]
  omega

theorem Entries.length_mod {files : Members Bytes} {bytes : Bytes} (entries : Entries files bytes) :
    bytes.length % block = 0 := by
  induction entries with
  | nil => rfl
  | @cons path content header files rest readable _ inductionHypothesis =>
    have padded := padded_eq content
    simp only [List.length_append, readable.length, block] at *
    omega

theorem Entries.block_le_length {file : String × Bytes} {files : Members Bytes} {bytes : Bytes}
    (entries : Entries (file :: files) bytes) : block ≤ bytes.length := by
  cases entries with
  | cons readable =>
    rw [List.length_append, readable.length]
    exact Nat.le_add_right ..

/-- The loop of the writer appends the bytes of its entries. -/
theorem entries_of_append {files : Members Bytes} {out tar : Bytes}
    (safe : ∀ file ∈ files, safeRelativePath file.1 = true)
    (written : files.foldlM (fun tar file => appendTarFile tar file.1 file.2) out = .ok tar) :
    ∃ bytes, tar = out ++ bytes ∧ Entries files bytes := by
  induction files generalizing out with
  | nil => exact ⟨[], by simpa using (Except.ok.inj written).symm, .nil⟩
  | cons file files inductionHypothesis =>
    rw [List.foldlM_cons, bind_eq_ok] at written
    obtain ⟨next, isNext, written⟩ := written
    rw [appendTarFile, bind_eq_ok] at isNext
    obtain ⟨header, isHeader, isNext⟩ := isNext
    obtain ⟨bytes, rfl, entries⟩ := inductionHypothesis
      (fun other member => safe other (List.mem_cons_of_mem _ member)) written
    have readable := readable_of_tarHeader (safe file List.mem_cons_self) isHeader
    refine ⟨_, ?_, .cons readable entries⟩
    rw [← Except.ok.inj isNext]
    simp only [List.append_assoc]

section Reading

variable {raw header content rest : Bytes} {path : String} {offset : Nat} {files : Members Bytes}

theorem field_of_drop {bytes : Bytes} (isRaw : raw.drop offset = bytes ++ rest) :
    field raw offset bytes.length = bytes := by
  rw [field, isRaw, List.take_left]

theorem drop_of_drop {bytes : Bytes} (isRaw : raw.drop offset = bytes ++ rest) :
    raw.drop (offset + bytes.length) = rest := by
  rw [← List.drop_drop, isRaw, List.drop_left]

theorem length_of_drop {bytes : Bytes} (inside : offset ≤ raw.length)
    (isRaw : raw.drop offset = bytes ++ rest) :
    offset + bytes.length + rest.length = raw.length := by
  have lengths := congrArg List.length isRaw
  rw [List.length_drop, List.length_append] at lengths
  omega

/-- What the reader makes of a written entry: its one reason to refuse it is that it has read a
file of this name. -/
theorem readEntry_written (readable : Readable path content.length header)
    (inside : offset ≤ raw.length) (isRaw : raw.drop offset = content ++ (padding content ++ rest))
    (bounded : raw.length < 2 ^ 64) (manifestFits : files.hasKey path = false →
      path = "manifest.json" → content.length ≤ maxManifestBytes) :
    readEntry raw offset header files = if files.hasKey path then .error "duplicate tar path"
      else .ok (path, content, content.length + (padding content).length) := by
  have small := readable.size_lt
  have lengths := length_of_drop inside isRaw
  have isPadding := field_of_drop (drop_of_drop isRaw)
  rw [List.length_append] at lengths
  have rounded : checkedAdd content.length (block - 1) = some (content.length + (block - 1)) :=
    if_pos (by simp only [block]; omega)
  have last : checkedAdd offset (content.length + (padding content).length) =
      some (offset + (content.length + (padding content).length)) := if_pos (by omega)
  have zeros : (padding content).all (· == 0) = true := all_replicate_zero _
  rw [readEntry, readable.readPath, ok_bind]
  by_cases isThere : files.hasKey path = true
  · rw [if_pos isThere, ensure_bind_of_false (by rw [isThere]; rfl)]
  have isManifest : (!(path == "manifest.json" && decide (maxManifestBytes < content.length))) =
      true := by
    by_cases same : path = "manifest.json"
    · simp [Nat.not_lt.2 (manifestFits (by simpa using isThere) same)]
    · simp [same]
  rw [if_neg isThere, ensure_bind_of_true (by simpa using isThere), readable.octal_size, ok_bind,
    ensure_bind_of_true isManifest]
  simp only [rounded, padded_eq, last, Nat.add_sub_cancel_left, isPadding, field_of_drop isRaw]
  rw [ensure_bind_of_true (by simpa using by omega), ensure_bind_of_true zeros]
  rfl

/-- One turn of the reader's loop at a written entry. -/
theorem readEntries_entry (readable : Readable path content.length header)
    (inside : offset ≤ raw.length)
    (isRaw : raw.drop offset = header ++ (content ++ (padding content ++ rest)))
    (bounded : raw.length < 2 ^ 64) (manifestFits : files.hasKey path = false →
      path = "manifest.json" → content.length ≤ maxManifestBytes) :
    readEntries raw offset files = if files.hasKey path then .error "duplicate tar path"
      else if maxBundleEntries + 1 < files.length + 1 then .error "tar contains too many entries"
      else readEntries raw (offset + header.length + (content.length + (padding content).length))
        (files ++ [(path, content)]) := by
  have lengths := length_of_drop inside isRaw
  rw [readable.length] at lengths
  have isHeader := field_of_drop isRaw
  have isEntry := drop_of_drop isRaw
  rw [readable.length] at isHeader isEntry
  rw [readEntries, if_pos (by omega)]
  simp only [isHeader, readable.nonzero, Bool.false_eq_true, if_false,
    readEntry_written readable (by omega) isEntry bounded manifestFits]
  by_cases isThere : files.hasKey path = true
  · simp only [if_pos isThere]
  · simp only [if_neg isThere, List.length_append, List.length_singleton, readable.length]

theorem readEntries_end (inside : offset ≤ raw.length)
    (isRaw : raw.drop offset = .replicate (block * 2) 0) : readEntries raw offset files = .ok files := by
  have split : raw.drop offset = .replicate block 0 ++ (.replicate block 0 ++ []) := by
    rw [isRaw, List.append_nil, List.replicate_append_replicate, Nat.mul_two]
  have lengths := length_of_drop inside split
  have first := field_of_drop split
  have second := field_of_drop (drop_of_drop split)
  have rest := drop_of_drop (drop_of_drop split)
  rw [List.length_append, List.length_nil] at lengths
  rw [List.length_replicate] at lengths first second rest
  rw [readEntries, if_pos (by omega)]
  simp only [first, all_replicate_zero, if_true]
  have isEnd : readEnd raw (offset + block) = .ok () := by
    rw [readEnd, second, rest, all_replicate_zero, ensure_bind_of_true (by simpa using by omega)]
    rfl
  rw [isEnd]
  rfl

end Reading

section Loop

variable {raw bytes : Bytes} {pending : Members Bytes}

/-- The reader reads all that was written, if no two entries have one name. -/
theorem readEntries_written (entries : Entries pending bytes) {offset : Nat} {files : Members Bytes}
    (inside : offset ≤ raw.length) (isRaw : raw.drop offset = bytes ++ .replicate (block * 2) 0)
    (bounded : raw.length < 2 ^ 64)
    (manifestFits : ∀ file ∈ pending, file.1 = "manifest.json" → file.2.length ≤ maxManifestBytes)
    (few : files.length + pending.length ≤ maxBundleEntries + 1)
    (distinct : ((files ++ pending).map Prod.fst).Nodup) :
    readEntries raw offset files = .ok (files ++ pending) := by
  induction entries generalizing offset files with
  | nil => rw [readEntries_end inside isRaw, List.append_nil]
  | @cons path content header others rest readable _ inductionHypothesis =>
    simp only [List.append_assoc] at isRaw
    have absent : ¬ files.hasKey path = true := by
      rw [Members.hasKey_iff]
      rw [List.map_append, List.nodup_append] at distinct
      exact fun isThere => distinct.2.2 path isThere path List.mem_cons_self rfl
    have lengths := length_of_drop inside isRaw
    rw [List.length_append, List.length_append] at lengths
    rw [List.length_cons] at few
    rw [readEntries_entry readable inside isRaw bounded
        (fun _ => manifestFits _ List.mem_cons_self), if_neg absent, if_neg (by omega), inductionHypothesis (by omega)
        (by
          have behind := drop_of_drop (drop_of_drop (drop_of_drop isRaw))
          rwa [Nat.add_assoc (offset + header.length)] at behind)
        (fun file member => manifestFits file (List.mem_cons_of_mem _ member))
        (by rw [List.length_append, List.length_singleton]; omega)
        (by rwa [List.append_assoc]), List.append_assoc]
    rfl

/-- It refuses a second entry of the manifest's name. -/
theorem readEntries_duplicate (entries : Entries pending bytes) {offset : Nat}
    {files : Members Bytes} (inside : offset ≤ raw.length)
    (isRaw : raw.drop offset = bytes ++ .replicate (block * 2) 0) (bounded : raw.length < 2 ^ 64)
    (isThere : files.hasKey "manifest.json" = true)
    (isPending : pending.hasKey "manifest.json" = true) :
    ∃ message, readEntries raw offset files = .error message := by
  induction entries generalizing offset files with
  | nil => cases isPending
  | @cons path content header others rest readable _ inductionHypothesis =>
    simp only [List.append_assoc] at isRaw
    have lengths := length_of_drop inside isRaw
    rw [List.length_append, List.length_append] at lengths
    rw [readEntries_entry readable inside isRaw bounded
      (fun absent isName => absurd (isName ▸ isThere) (by simp [absent]))]
    by_cases isRead : files.hasKey path = true
    · exact ⟨_, if_pos isRead⟩
    rw [if_neg isRead]
    split
    · exact ⟨_, rfl⟩
    have other : others.hasKey "manifest.json" = true := by
      rw [Members.hasKey_iff, List.map_cons, List.mem_cons] at isPending
      rcases isPending with isName | isPending
      · have same : "manifest.json" = path := isName
        exact absurd (same ▸ isThere) isRead
      · exact (Members.hasKey_iff ..).2 isPending
    refine inductionHypothesis (by omega) ?_ ?_ other
    · have behind := drop_of_drop (drop_of_drop (drop_of_drop isRaw))
      rwa [Nat.add_assoc (offset + header.length)] at behind
    · simp only [Members.hasKey, List.any_append, Bool.or_eq_true]
      exact .inl isThere

end Loop

/-- The number of bytes that the writer computes beforehand is the one it writes. -/
theorem length_of_checkedTarSize {files : Members Bytes} {bytes : Bytes} {before total : Nat}
    (entries : Entries files bytes)
    (isTotal : (files.map fun file => file.2.length).foldlM (fun total size => do
      let padded := (← checkedAdd size (block - 1)) / block * block
      checkedAdd (← checkedAdd total block) padded) before = some total) :
    total = before + bytes.length := by
  have sum {first second result : Nat} (isSum : checkedAdd first second = some result) :
      result = first + second := by
    unfold checkedAdd at isSum
    split at isSum
    · exact (Option.some.inj isSum).symm
    · cases isSum
  induction entries generalizing before with
  | nil => exact (Option.some.inj isTotal).symm
  | @cons path content header others rest readable _ inductionHypothesis =>
    rw [List.map_cons, List.foldlM_cons] at isTotal
    simp only [Option.bind_eq_bind, Option.bind_eq_some_iff] at isTotal
    obtain ⟨next, ⟨rounded, isRounded, further, isFurther, isNext⟩, isTotal⟩ := isTotal
    have padded := padded_eq content
    rw [inductionHypothesis isTotal, sum isNext, sum isFurther, sum isRounded, padded]
    simp only [List.length_append, readable.length]
    omega

theorem not_hasKey_of_readEntry {raw header content : Bytes} {offset padded : Nat} {path : String}
    {files : Members Bytes} (isRead : readEntry raw offset header files = .ok (path, content, padded)) :
    files.hasKey path = false := by
  rw [readEntry, bind_eq_ok] at isRead
  obtain ⟨read, -, isRead⟩ := isRead
  rw [ensure_bind_eq_ok, Bool.not_eq_true', bind_eq_ok] at isRead
  obtain ⟨absent, size, -, isRead⟩ := isRead
  rw [ensure_bind_eq_ok] at isRead
  obtain ⟨-, isRead⟩ := isRead
  split at isRead
  · dsimp only at isRead
    split at isRead
    · rw [ensure_bind_eq_ok, ensure_bind_eq_ok] at isRead
      obtain ⟨rfl, -⟩ := Prod.mk.inj (Except.ok.inj isRead.2.2)
      exact absent
    · cases isRead
  · cases isRead

/-- The reader never has two payloads of one name. -/
theorem nodup_readEntries {raw : Bytes} {offset : Nat} {files result : Members Bytes}
    (distinct : (files.map Prod.fst).Nodup)
    (isRead : readEntries raw offset files = .ok result) : (result.map Prod.fst).Nodup := by
  induction offset, files using readEntries.induct raw with
  | case1 offset files inside header isZero =>
    rw [readEntries, if_pos inside] at isRead
    simp only [header, isZero, if_true, check_bind_eq_ok] at isRead
    obtain rfl := Except.ok.inj isRead.2
    exact distinct
  | case2 offset files inside header notZero message isEntry =>
    rw [readEntries, if_pos inside] at isRead
    simp only [header, notZero, isEntry] at isRead
    cases isRead
  | case3 offset files inside header notZero path content padded isEntry longer many =>
    rw [readEntries, if_pos inside] at isRead
    simp only [header, notZero, isEntry, longer, many, if_true] at isRead
    cases isRead
  | case4 offset files inside header notZero path content padded isEntry longer few
      inductionHypothesis =>
    rw [readEntries, if_pos inside] at isRead
    simp only [header, notZero, isEntry, longer, few] at isRead
    refine inductionHypothesis ?_ isRead
    have absent := not_hasKey_of_readEntry isEntry
    have fresh : path ∉ files.map Prod.fst := by
      rw [← Members.hasKey_iff, absent]
      exact Bool.false_ne_true
    rw [List.map_append, List.nodup_append]
    refine ⟨distinct, by simp, fun key isKey other isOther => ?_⟩
    rw [List.mem_singleton.1 isOther]
    rintro rfl
    exact fresh isKey
  | case5 offset files outside =>
    rw [readEntries, if_neg outside] at isRead
    cases isRead

end Tar

/-! ### Bundles -/

variable {runtime : ArchiveRuntime} {manifest : BundleManifest} {files : Members Bytes}

/-- What the writer has done when it succeeds. -/
structure Written (runtime : ArchiveRuntime) (manifest : BundleManifest) (files : Members Bytes)
    (manifestBytes bytes : Bytes) : Prop where
  valid : validateManifest runtime.toBundleRuntime manifest files = .ok ()
  isManifest : runtime.toVec manifest = .ok manifestBytes
  manifestFits : manifestBytes.length ≤ maxManifestBytes
  size : Tar.checkedTarSize (manifestBytes.length :: files.map fun file => file.2.length) =
    some (bytes.length + Tar.block * 2)
  fits : bytes.length + Tar.block * 2 ≤ maxBytes manifest.kind
  entries : Tar.Entries (("manifest.json", manifestBytes) :: files) bytes

theorem safe_manifest : safeRelativePath "manifest.json" = true := by
  decide

theorem writeBundleTar_eq_ok {tar : Bytes} (written : writeBundleTar runtime manifest files = .ok tar) :
    ∃ manifestBytes bytes, tar = bytes ++ .replicate (Tar.block * 2) 0 ∧
      Written runtime manifest files manifestBytes bytes := by
  rw [writeBundleTar, check_bind_eq_ok, bind_eq_ok] at written
  obtain ⟨valid, manifestBytes, isManifest, written⟩ := written
  rw [ensure_bind_eq_ok] at written
  obtain ⟨manifestFits, written⟩ := written
  split at written
  next total isTotal =>
    rw [ensure_bind_eq_ok, bind_eq_ok] at written
    obtain ⟨-, tar, isTar, written⟩ := written
    have known := validateManifest_eq_ok _ valid
    have safe : ∀ file ∈ ("manifest.json", manifestBytes) :: files,
        safeRelativePath file.1 = true := by
      refine List.forall_mem_cons.2 ⟨safe_manifest, fun file member => ?_⟩
      rcases known.listed file member with isName | ⟨entry, isEntry, same⟩
      · exact isName ▸ safe_manifest
      · exact same ▸ (known.entries entry isEntry).safe
    obtain ⟨bytes, same, entries⟩ := Tar.entries_of_append safe isTar
    obtain rfl : bytes = tar := same.symm
    obtain ⟨isSize, fits⟩ := Option.filter_eq_some_iff.1 isTotal
    have isLength := Tar.length_of_checkedTarSize entries isSize
    rw [Nat.add_comm] at isLength
    rw [isLength] at isSize fits
    have isVec : runtime.toVec manifest = .ok manifestBytes := by
      cases isVec : runtime.toVec manifest with
      | error message =>
        rw [isVec] at isManifest
        cases isManifest
      | ok vec =>
        rw [isVec] at isManifest
        rw [Except.ok.inj isManifest]
    exact ⟨manifestBytes, bytes, (Except.ok.inj written).symm, valid, isVec,
      by simpa using manifestFits, isSize, by simpa using fits, entries⟩
  · cases written

theorem maxBytes_lt (kind : BundleKind) : maxBytes kind < 2 ^ 64 := by
  cases kind <;> decide

/-- Reading the archive, up to the entries in it. -/
theorem Written.parseTar {manifestBytes bytes : Bytes}
    (written : Written runtime manifest files manifestBytes bytes) :
    Tar.parseTar (bytes ++ .replicate (Tar.block * 2) 0) (maxBytes manifest.kind) =
      Tar.readEntries (bytes ++ .replicate (Tar.block * 2) 0) 0 [] >>= fun files =>
        match files.get "manifest.json" with
        | some manifestBytes => .ok (files.delete "manifest.json", manifestBytes)
        | none => .error "bundle manifest is missing" := by
  have fits := written.fits
  have isMultiple := written.entries.length_mod
  have long := written.entries.block_le_length
  have whole : (bytes ++ List.replicate (Tar.block * 2) 0).length = bytes.length + 1024 := by
    rw [List.length_append, List.length_replicate]
    rfl
  have bounded : ¬ maxBytes manifest.kind < bytes.length + 1024 := Nat.not_lt.2 fits
  have enough : ¬ bytes.length + 1024 < Tar.block * 3 := by
    simp only [Tar.block] at long ⊢
    omega
  have aligned : (bytes.length + 1024) % Tar.block = 0 := by
    simp only [Tar.block] at isMultiple ⊢
    omega
  rw [Tar.parseTar, whole, ensure_bind_of_true (by simp [bounded, enough, aligned])]
  rfl

theorem delete_of_not_hasKey {key : String} (absent : files.hasKey key = false) :
    files.delete key = files := by
  refine List.filter_eq_self.2 fun file member => bne_iff_ne.2 ?_
  rintro rfl
  exact absurd ((Members.hasKey_iff ..).2 (List.mem_map_of_mem member)) (by simp [absent])

/-- Every payload has an entry of its own. -/
theorem length_le_of_valid (known : ValidManifest runtime.toBundleRuntime manifest files)
    (distinct : (files.map Prod.fst).Nodup) (absent : files.hasKey "manifest.json" = false) :
    files.length ≤ maxBundleEntries := by
  have listed : files.map Prod.fst ⊆ manifest.entries.map BundleEntry.path := by
    intro path member
    obtain ⟨file, isFile, rfl⟩ := List.mem_map.1 member
    rcases known.listed file isFile with isName | ⟨entry, isEntry, same⟩
    · have isThere := (Members.hasKey_iff files "manifest.json").2 (isName ▸ member)
      rw [absent] at isThere
      cases isThere
    · exact List.mem_map.2 ⟨entry, isEntry, same⟩
  have fewer := (List.subperm_of_subset distinct listed).length_le
  rw [List.length_map, List.length_map] at fewer
  exact Nat.le_trans fewer known.few

section Archives

variable {manifestBytes bytes : Bytes}

theorem Written.bounded (written : Written runtime manifest files manifestBytes bytes) :
    (bytes ++ List.replicate (Tar.block * 2) 0).length < 2 ^ 64 := by
  rw [List.length_append, List.length_replicate]
  exact Nat.lt_of_le_of_lt written.fits (maxBytes_lt _)

/-- A written archive without a payload of the manifest's name gives its bundle back. -/
theorem Written.parse (written : Written runtime manifest files manifestBytes bytes)
    (distinct : (files.map Prod.fst).Nodup) (absent : files.hasKey "manifest.json" = false) :
    parseBundleTar runtime (bytes ++ .replicate (Tar.block * 2) 0) (some manifest.kind) =
      .ok ⟨manifest, files, bytes ++ .replicate (Tar.block * 2) 0⟩ := by
  have few := length_le_of_valid (validateManifest_eq_ok _ written.valid) distinct absent
  have fresh : "manifest.json" ∉ files.map Prod.fst := by
    rw [← Members.hasKey_iff, absent]
    exact Bool.false_ne_true
  have manifestFits : ∀ file ∈ ("manifest.json", manifestBytes) :: files,
      file.1 = "manifest.json" → file.2.length ≤ maxManifestBytes := by
    refine List.forall_mem_cons.2 ⟨fun _ => written.manifestFits, fun file member isName => ?_⟩
    exact absurd (isName ▸ List.mem_map_of_mem member) fresh
  have isRead : Tar.readEntries (bytes ++ .replicate (Tar.block * 2) 0) 0 [] =
      .ok (("manifest.json", manifestBytes) :: files) :=
    Tar.readEntries_written written.entries (Nat.zero_le _) rfl written.bounded manifestFits
      (by simpa using few) (List.nodup_cons.2 ⟨fresh, distinct⟩)
  have isFound : Members.get (("manifest.json", manifestBytes) :: files) "manifest.json" =
      some manifestBytes := by
    rw [Members.get_cons, if_pos rfl]
  have isRest : Members.delete (("manifest.json", manifestBytes) :: files) "manifest.json" =
      files := delete_of_not_hasKey absent
  have isTar : Tar.parseTar (bytes ++ .replicate (Tar.block * 2) 0) (maxBytes manifest.kind) =
      .ok (files, manifestBytes) := by
    rw [written.parseTar, isRead, ok_bind]
    simp only [isFound, isRest]
  rw [parseBundleTar, Option.map_some, Option.getD_some, isTar, ok_bind]
  simp only [runtime.fromSlice_toVec _ _ written.isManifest]
  rw [ensure_bind_of_true (by simp), written.valid]
  rfl

/-- A payload of the manifest's name makes the reader refuse the archive. -/
theorem Written.refused (written : Written runtime manifest files manifestBytes bytes)
    (isThere : files.hasKey "manifest.json" = true) :
    ∃ message, parseBundleTar runtime (bytes ++ .replicate (Tar.block * 2) 0)
      (some manifest.kind) = .error message := by
  have isRead : ∃ message, Tar.readEntries (bytes ++ .replicate (Tar.block * 2) 0) 0 [] =
      .error message := by
    have bounded := written.bounded
    cases written.entries with
    | @cons _ _ header _ rest readable entries =>
      have isRaw : ((header ++ (manifestBytes ++ (Tar.padding manifestBytes ++ rest))) ++
          List.replicate (Tar.block * 2) 0).drop 0 = header ++ (manifestBytes ++
            (Tar.padding manifestBytes ++ (rest ++ .replicate (Tar.block * 2) 0))) := by
        simp only [List.drop_zero, List.append_assoc]
      have lengths := Tar.length_of_drop (Nat.zero_le _) isRaw
      have behind := Tar.drop_of_drop (Tar.drop_of_drop (Tar.drop_of_drop isRaw))
      rw [List.length_append, List.length_append] at lengths
      rw [Nat.add_assoc (0 + header.length)] at behind
      rw [Tar.readEntries_entry readable (Nat.zero_le _) isRaw bounded
        (fun _ _ => written.manifestFits), if_neg (by exact Bool.false_ne_true), if_neg (by decide)]
      exact Tar.readEntries_duplicate entries (by omega) behind bounded
        (by simp [Members.hasKey]) isThere
  obtain ⟨message, isRead⟩ := isRead
  refine ⟨message, ?_⟩
  rw [parseBundleTar, Option.map_some, Option.getD_some, written.parseTar, isRead]
  rfl

end Archives

/-- What every bundle has that the reader returns. -/
structure Bundle.WellFormed (runtime : ArchiveRuntime) (bundle : Bundle) : Prop where
  safe : ∀ file ∈ bundle.files, safeRelativePath file.1 = true
  distinct : (bundle.files.map fun file => runtime.lowercase file.1).Nodup
  listed : ∀ file ∈ bundle.files, ∃ entry ∈ bundle.manifest.entries, entry.path = file.1 ∧
    entry.size = file.2.length ∧ entry.sha256 = runtime.sha256Hex file.2

theorem get_of_mem (distinct : (files.map Prod.fst).Nodup) {file : String × Bytes}
    (member : file ∈ files) : files.get file.1 = some file.2 := by
  induction files with
  | nil => cases member
  | cons head files inductionHypothesis =>
    rw [List.map_cons, List.nodup_cons] at distinct
    rw [Members.get_cons]
    rcases List.mem_cons.1 member with rfl | member
    · rw [if_pos rfl]
    · have other : head.1 ≠ file.1 := fun same => distinct.1 (same ▸ List.mem_map_of_mem member)
      rw [if_neg other, inductionHypothesis distinct.2 member]

/-- Payloads of a valid manifest without one of its own name. -/
theorem Bundle.wellFormed {bundle : Bundle}
    (known : ValidManifest runtime.toBundleRuntime bundle.manifest bundle.files)
    (distinct : (bundle.files.map Prod.fst).Nodup)
    (absent : ∀ file ∈ bundle.files, file.1 ≠ "manifest.json") : bundle.WellFormed runtime := by
  have listed : ∀ file ∈ bundle.files, ∃ entry ∈ bundle.manifest.entries, entry.path = file.1 :=
    fun file member => (known.listed file member).resolve_left (absent file member)
  constructor
  case safe =>
    intro file member
    obtain ⟨entry, isEntry, same⟩ := listed file member
    exact same ▸ (known.entries entry isEntry).safe
  case listed =>
    intro file member
    obtain ⟨entry, isEntry, same⟩ := listed file member
    obtain ⟨isSize, isDigest⟩ := (known.entries entry isEntry).payload file.2
      (same ▸ get_of_mem distinct member)
    exact ⟨entry, isEntry, same, isSize.symm, isDigest.symm⟩
  case distinct =>
    have folded : ((bundle.files.map Prod.fst).map runtime.lowercase).Nodup := by
      refine distinct.map_on fun first isFirst second isSecond same => ?_
      obtain ⟨file, member, rfl⟩ := List.mem_map.1 isFirst
      obtain ⟨other, isOther, rfl⟩ := List.mem_map.1 isSecond
      obtain ⟨entry, isEntry, isPath⟩ := listed file member
      obtain ⟨otherEntry, isOtherEntry, isOtherPath⟩ := listed other isOther
      rw [← isPath, ← isOtherPath] at same ⊢
      rw [List.inj_on_of_nodup_map known.distinct isEntry isOtherEntry same]
    rwa [List.map_map] at folded

theorem parseBundleTar_eq_ok {raw : Bytes} {expectedKind : Option BundleKind} {bundle : Bundle}
    (parsed : parseBundleTar runtime raw expectedKind = .ok bundle) :
    ValidManifest runtime.toBundleRuntime bundle.manifest bundle.files ∧
      (bundle.files.map Prod.fst).Nodup ∧ ∀ file ∈ bundle.files, file.1 ≠ "manifest.json" := by
  rw [parseBundleTar, bind_eq_ok] at parsed
  obtain ⟨⟨files, manifestBytes⟩, isTar, parsed⟩ := parsed
  dsimp only at parsed
  split at parsed
  next manifest isManifest =>
    rw [ensure_bind_eq_ok, check_bind_eq_ok] at parsed
    obtain ⟨-, valid, isBundle⟩ := parsed
    obtain rfl := Except.ok.inj isBundle
    refine ⟨validateManifest_eq_ok _ valid, ?_⟩
    rw [Tar.parseTar, ensure_bind_eq_ok, bind_eq_ok] at isTar
    obtain ⟨-, read, isRead, isTar⟩ := isTar
    split at isTar
    · obtain ⟨rfl, -⟩ := Prod.mk.inj (Except.ok.inj isTar)
      have distinct := Tar.nodup_readEntries (by simp) isRead
      refine ⟨distinct.sublist (List.filter_sublist.map _), fun file member => ?_⟩
      exact bne_iff_ne.1 (List.mem_filter.1 member).2
    · cases isTar
  · cases parsed

/-- An empty bundle. -/
def bareManifest : BundleManifest where
  version := 1
  seq := 1
  createdAt := "2026-01-01T00:00:00Z"
  kind := .inbox
  entries := []
  lastInboxSeq := none
  truncated := none
  skippedSymlinks := none

/-- Libraries that know the one manifest, whose text is the empty one. -/
def bareRuntime : ArchiveRuntime where
  sha256Hex _ := ""
  timestamp _ := some 0
  lowercase := id
  allocates _ := true
  toVec manifest := if manifest = bareManifest then .ok [] else .error "unknown"
  fromSlice _ := some bareManifest
  fromSlice_toVec manifest bytes isVec := by
    by_cases same : manifest = bareManifest
    · rw [same]
    · simp [same] at isVec

theorem writeBundleTar_bare (files : Members Bytes)
    (isWritten : (writeBundleTar bareRuntime bareManifest files).toOption.isSome = true) :
    ∃ tar, writeBundleTar bareRuntime bareManifest files = .ok tar := by
  cases written : writeBundleTar bareRuntime bareManifest files with
  | error message =>
    rw [written] at isWritten
    cases isWritten
  | ok tar => exact ⟨tar, rfl⟩

end AiSwitcher.Exchange
