/-
This file proves that the drive reads the bundles that the host writes. The two programs have
their own readers and writers of the tar format and of the manifest. What the drive makes of a
header of the host is computed field by field: it finds the entry under the name that the host
gave it, without a byte order mark in front of the name or of the directory. The checks of the
manifest are implied by those that the host makes before it writes, but for the date, which each
side reads with its own platform.
-/

import AiSwitcher.Exchange.BundleRoundTrip
import AiSwitcher.Library.TextDecoder
import AiSwitcher.Live.Bundle

namespace AiSwitcher.LiveBundle

open JavaScript
open Utf8 (Bytes mark unmarked)
open Fields (field)
open Exchange (BundleKind BundleEntry BundleManifest PathClass pathParts maxBytes safeRelativePath
  classifyPath validateManifest writeBundleTar ArchiveRuntime)
open Exchange.Tar (block headerChecksum fromOctal octalText checkedHeader plainHeader Fitting
  splitPath splitLastSlash bytesOf padding IsOctal)
open Host (maxSafeSequence)

/-! ### Fields -/

theorem tarString_encode {text : List Char} {rest : Bytes}
    (noZero : ∀ character ∈ text, character.toNat ≠ 0) (ends : rest = [] ∨ rest.head? = some 0) :
    tarString (Utf8.encode text ++ rest) = .ok (.ofList (unmarked false text).1) := by
  have absent := Utf8.ascii_not_mem_encode (show 0 < 128 by decide) noZero
  rw [tarString, Exchange.Tar.takeWhile_zero absent ends, Utf8.decodeFatal_encode_eq]

theorem not_isWhitespace {character : Char} (isOctal : IsOctal character) :
    isWhitespace character = false := by
  unfold IsOctal at isOctal
  simp only [isWhitespace, Bool.or_eq_false_iff, Bool.and_eq_false_iff, decide_eq_false_iff_not,
    beq_eq_false_iff_ne]
  omega

theorem trim_of_isOctal {text : List Char} (isOctal : ∀ character ∈ text, IsOctal character) :
    trim (.ofList text) = .ofList text := by
  have front {text : List Char} (isOctal : ∀ character ∈ text, IsOctal character) :
      text.dropWhile isWhitespace = text := by
    cases text with
    | nil => rfl
    | cons character text =>
      exact List.dropWhile_cons_of_neg
        (by simp [not_isWhitespace (isOctal character List.mem_cons_self)])
  rw [trim, String.toList_ofList, front isOctal,
    front fun character member => isOctal character (by simpa using member), List.reverse_reverse]

/-- A number that the host wrote is read back. -/
theorem tarOctal_octalText {width value : Nat} {rest : Bytes} (positive : 0 < width)
    (small : value ≤ maxSafeSequence) (ends : rest.head? = some 0) :
    tarOctal (Utf8.encode (octalText width value) ++ rest) = .ok value := by
  have isOctal : ∀ character ∈ octalText width value, IsOctal character :=
    fun _ => Exchange.Tar.isOctal_of_mem
  have noZero : ∀ character ∈ octalText width value, character.toNat ≠ 0 := by
    intro character member isZero
    have low := (isOctal character member).1
    omega
  have long := Exchange.Tar.length_octalText_ge width value
  have noMark : (octalText width value).head? ≠ some mark := by
    intro isMark
    have high := (isOctal mark (List.mem_of_mem_head? isMark)).2
    exact absurd high (by decide)
  have present : String.ofList (octalText width value) ≠ "" := by
    intro isEmpty
    have lengths := congrArg (fun text => text.toList.length) isEmpty
    rw [String.toList_ofList] at lengths
    change (octalText width value).length = 0 at lengths
    omega
  have digits : ((octalText width value).all fun digit => '0' ≤ digit && digit ≤ '7') = true := by
    refine List.all_eq_true.2 fun character member => ?_
    obtain ⟨low, high⟩ := isOctal character member
    have below : '0' ≤ character := low
    have above : character ≤ '7' := Nat.le_of_lt_succ high
    simp [below, above]
  rw [tarOctal, tarString_encode noZero (.inr ends), (Utf8.unmarked_eq_self_iff _).mpr noMark,
    ok_bind, trim_of_isOctal isOctal]
  dsimp only
  rw [String.toList_ofList, digits, Exchange.Tar.fromOctal_octalText,
    ensure_bind_of_true (by simpa using present), ensure_bind_of_true (decide_eq_true small)]
  rfl

/-! ### Headers -/

section Headers

variable {name start : Bytes} {size : Nat}

theorem tarOctal_checksum (fitting : Fitting name start size) :
    tarOctal (field (checkedHeader name start size) 148 8) =
      .ok ((plainHeader name start size).map (·.toNat)).sum := by
  have small := fitting.checksum_lt
  rw [checkedHeader, Fields.field_patch_exact fitting.checksum_fits fitting.length_checksumText,
    Exchange.Tar.checksumText]
  exact tarOctal_octalText (by decide) (Nat.le_of_lt (Nat.lt_trans small (by decide))) rfl

theorem tarOctal_size (fitting : Fitting name start size) :
    tarOctal (field (checkedHeader name start size) 124 12) = .ok size := by
  have own := fitting.field_plainHeader
    (show (124, Utf8.encode (octalText 11 size) ++ [0]) ∈ _ by simp [Exchange.Tar.headerFields])
  rw [Exchange.Tar.length_numeric fitting.size] at own
  rw [fitting.field_checkedHeader (by decide), own]
  exact tarOctal_octalText (by decide) (Nat.le_of_lt (Nat.lt_trans fitting.size (by decide))) rfl

/-- The drive takes the name and the directory from a header of the host without the marks in front
of them. -/
theorem readPath_checkedHeader (fitting : Fitting name start size) {nameText startText : List Char}
    (isName : name = Utf8.encode nameText) (isStart : start = Utf8.encode startText)
    (nameNoZero : ∀ character ∈ nameText, character.toNat ≠ 0)
    (startNoZero : ∀ character ∈ startText, character.toNat ≠ 0) :
    let path := joined (.ofList (unmarked false startText).1) (.ofList (unmarked false nameText).1)
    readPath (checkedHeader name start size) =
      ensure (safePath path) "unsafe tar path" >>= fun _ => .ok path := by
  have readName : tarString (name ++ .replicate (100 - name.length) 0) =
      .ok (.ofList (unmarked false nameText).1) := by
    rw [isName]
    exact tarString_encode nameNoZero (Exchange.Tar.replicate_zero_ends _)
  have readStart : tarString (start ++ .replicate (155 - start.length) 0) =
      .ok (.ofList (unmarked false startText).1) := by
    rw [isStart]
    exact tarString_encode startNoZero (Exchange.Tar.replicate_zero_ends _)
  have readMagic : tarString (bytesOf "ustar" ++ [0]) = .ok "ustar" :=
    tarString_encode (show ∀ character ∈ "ustar".toList, character.toNat ≠ 0 by simp) (.inr rfl)
  have isMagic : (bytesOf "ustar" ++ [0]).any (· != 0) = true := by decide
  intro path
  rw [readPath, tarOctal_checksum fitting, fitting.headerChecksum, fitting.name_checkedHeader,
    fitting.start_checkedHeader, fitting.type_checkedHeader, fitting.magic_checkedHeader, readName,
    readStart, ok_bind, ensure_bind_of_true (beq_self_eq_true _), ok_bind, ok_bind, if_pos isMagic,
    readMagic]
  rfl

end Headers

/-! ### Names -/

/-- A path whose name and directory in the archive have no byte order mark in front of them. The
last slash parts them only if the path does not fit into the first field. -/
def Unmarked (path : String) : Prop :=
  path.toList.head? ≠ some mark ∧ (100 < (bytesOf path).length →
    ∀ before behind, splitLastSlash path.toList = some (before, behind) → behind.head? ≠ some mark)

/-- The name under which the drive finds an entry of the host. -/
def driveName (path : String) : String :=
  if (bytesOf path).length ≤ 100 then .ofList (unmarked false path.toList).1
  else
    match splitLastSlash path.toList with
    | some (before, behind) =>
        joined (.ofList (unmarked false before).1) (.ofList (unmarked false behind).1)
    | none => path

theorem toList_joined {start name : List Char} (present : start ≠ []) :
    (joined (.ofList start) (.ofList name)).toList = start ++ '/' :: name := by
  have nonempty : (String.ofList start != "") = true := by
    rw [bne_iff_ne, Ne, String.ofList_eq_empty_iff]
    exact present
  rw [joined, if_pos nonempty]
  simp only [String.toList_append, String.toList_ofList, List.append_assoc]
  rfl

/-- Taking marks off does not give the same path again, unless there are none. -/
theorem joined_unmarked_eq_iff {before behind : List Char} (present : before ≠ []) :
    joined (.ofList (unmarked false before).1) (.ofList (unmarked false behind).1) =
        .ofList (before ++ '/' :: behind) ↔
      before.head? ≠ some mark ∧ behind.head? ≠ some mark := by
  rw [← Utf8.unmarked_eq_self_iff before, ← Utf8.unmarked_eq_self_iff behind]
  have shorter := Utf8.length_unmarked_le false before
  have shorterName := Utf8.length_unmarked_le false behind
  constructor
  · intro same
    have texts := congrArg String.toList same
    rw [String.toList_ofList] at texts
    by_cases isEmpty : (unmarked false before).1 = []
    · have alone : joined (.ofList []) (.ofList (unmarked false behind).1) =
          .ofList (unmarked false behind).1 := if_neg (by decide)
      rw [isEmpty, alone, String.toList_ofList] at texts
      have lengths := congrArg List.length texts
      rw [List.length_append, List.length_cons] at lengths
      omega
    · rw [toList_joined isEmpty] at texts
      have lengths := congrArg List.length texts
      rw [List.length_append, List.length_cons, List.length_append, List.length_cons] at lengths
      obtain ⟨isStart, isName⟩ := List.append_inj texts (by omega)
      exact ⟨isStart, (List.cons.inj isName).2⟩
  · rintro ⟨isStart, isName⟩
    rw [isStart, isName, ← String.toList_inj, toList_joined present, String.toList_ofList]

theorem driveName_eq_iff {path : String} {name start : Bytes} (safe : safeRelativePath path = true)
    (isSplit : splitPath path = .ok (name, start)) : driveName path = path ↔ Unmarked path := by
  rw [splitPath] at isSplit
  rw [driveName, Unmarked]
  by_cases short : (bytesOf path).length ≤ 100
  · rw [if_pos short, ← Utf8.unmarked_eq_self_iff, ← String.toList_inj, String.toList_ofList]
    exact (and_iff_left fun long => absurd short (Nat.not_le.mpr long)).symm
  · rw [if_neg short] at isSplit ⊢
    cases isSlash : splitLastSlash path.toList with
    | none =>
      rw [isSlash] at isSplit
      cases isSplit
    | some parts =>
      obtain ⟨before, behind⟩ := parts
      have whole := Exchange.Tar.splitLastSlash_eq_some isSlash
      have present : before ≠ [] := by
        rintro rfl
        simp [safeRelativePath, startsWith, whole] at safe
      have isPath : path = .ofList (before ++ '/' :: behind) := by
        rw [← whole, String.ofList_toList]
      have sameHead : path.toList.head? = before.head? := by
        rw [whole, List.head?_append_of_ne_nil _ present]
      dsimp only
      nth_rewrite 1 [isPath]
      rw [joined_unmarked_eq_iff present, sameHead]
      refine and_congr_right fun _ => ⟨fun unmarkedName _ others later same => ?_, fun all => ?_⟩
      · rw [← (Prod.mk.inj (Option.some.inj same)).2]
        exact unmarkedName
      · exact all (Nat.not_le.mp short) before behind rfl

/-! ### Entries -/

/-- A header of the host from which the drive takes this path and this size. -/
structure Readable (path : String) (size : Nat) (header : Bytes) : Prop where
  length : header.length = block
  nonzero : header.all (· == 0) = false
  readPath : readPath header =
    ensure (safePath (driveName path)) "unsafe tar path" >>= fun _ => .ok (driveName path)
  tarOctal_size : tarOctal (field header 124 12) = .ok size
  isNamed : driveName path = path ↔ Unmarked path

theorem readable_of_tarHeader {path : String} {size : Nat} {header : Bytes}
    (safe : safeRelativePath path = true)
    (written : Exchange.Tar.tarHeader path size = .ok header) : Readable path size header := by
  obtain ⟨name, start, isSplit, fits, isHeader⟩ := Exchange.Tar.tarHeader_eq_ok written
  obtain ⟨nameFits, startFits, -⟩ := Exchange.Tar.splitPath_eq_ok safe isSplit
  have fitting : Fitting name start size := ⟨nameFits, startFits, fits⟩
  have isNamed := driveName_eq_iff safe isSplit
  rw [isHeader]
  refine ⟨fitting.length_checkedHeader, fitting.nonzero, ?_, tarOctal_size fitting, isNamed⟩
  have noZero : ∀ character ∈ path.toList, character.toNat ≠ 0 := by
    simp only [safeRelativePath, Bool.and_eq_true, Bool.not_eq_true', List.any_eq_false] at safe
    intro character member isZero
    simpa [isZero] using safe.1.2 character member
  rw [splitPath] at isSplit
  rw [driveName]
  by_cases short : (bytesOf path).length ≤ 100
  · rw [if_pos short] at isSplit ⊢
    obtain ⟨rfl, rfl⟩ := Prod.mk.inj (Except.ok.inj isSplit)
    exact @readPath_checkedHeader _ _ _ fitting path.toList [] rfl rfl noZero (by simp)
  · rw [if_neg short] at isSplit ⊢
    cases isSlash : splitLastSlash path.toList with
    | none =>
      rw [isSlash] at isSplit
      cases isSplit
    | some parts =>
      obtain ⟨before, behind⟩ := parts
      rw [isSlash, ensure_bind_eq_ok] at isSplit
      obtain ⟨rfl, rfl⟩ := Prod.mk.inj (Except.ok.inj isSplit.2)
      have whole := Exchange.Tar.splitLastSlash_eq_some isSlash
      rw [whole] at noZero
      exact readPath_checkedHeader fitting rfl rfl
        (fun character member => noZero character (by simp [member]))
        (fun character member => noZero character (by simp [member]))

/-- The bytes of entries that the drive can read. -/
inductive Entries : Members Bytes → Bytes → Prop
  | nil : Entries [] []
  | cons {path : String} {content header : Bytes} {files : Members Bytes} {rest : Bytes} :
      Readable path content.length header → Entries files rest →
        Entries ((path, content) :: files) (header ++ (content ++ (padding content ++ rest)))

/-- The loop of the host appends such bytes. -/
theorem entries_of_append {files : Members Bytes} {out tar : Bytes}
    (safe : ∀ file ∈ files, safeRelativePath file.1 = true)
    (written : files.foldlM (fun tar file => Exchange.Tar.appendTarFile tar file.1 file.2) out =
      .ok tar) : ∃ bytes, tar = out ++ bytes ∧ Entries files bytes := by
  induction files generalizing out with
  | nil => exact ⟨[], by simpa using (Except.ok.inj written).symm, .nil⟩
  | cons file files inductionHypothesis =>
    rw [List.foldlM_cons, bind_eq_ok] at written
    obtain ⟨next, isNext, written⟩ := written
    rw [Exchange.Tar.appendTarFile, bind_eq_ok] at isNext
    obtain ⟨header, isHeader, isNext⟩ := isNext
    rw [List.forall_mem_cons] at safe
    obtain ⟨bytes, rfl, entries⟩ := inductionHypothesis safe.2 written
    refine ⟨_, ?_, .cons (readable_of_tarHeader safe.1 isHeader) entries⟩
    rw [← Except.ok.inj isNext]
    simp only [List.append_assoc]

section Reading

variable {raw header content rest : Bytes} {path : String} {offset : Nat} {files : Members Bytes}

/-- What the drive makes of an entry of the host: it refuses it if its name is not safe or has been
read. -/
theorem readEntry_written (readable : Readable path content.length header)
    (inside : offset ≤ raw.length) (isRaw : raw.drop offset = content ++ (padding content ++ rest)) :
    readEntry raw offset header files =
      ensure (safePath (driveName path)) "unsafe tar path" >>= fun _ =>
        ensure (!files.hasKey (driveName path)) "duplicate tar path" >>= fun _ =>
          .ok (driveName path, content, content.length + (padding content).length) := by
  have lengths := Exchange.Tar.length_of_drop inside isRaw
  rw [List.length_append] at lengths
  have fits : offset + (content.length + (padding content).length) ≤ raw.length := by omega
  rw [readEntry, readable.readPath, readable.tarOctal_size]
  cases safePath (driveName path) with
  | false => rfl
  | true =>
    rw [ensure_bind_of_true rfl, ok_bind, ensure_bind_of_true rfl, ok_bind]
    dsimp only
    rw [Exchange.Tar.padded_eq, Exchange.Tar.field_of_drop isRaw,
      ensure_bind_of_true (decide_eq_true fits)]
    rfl

/-- One turn of the drive's loop at an entry of the host. -/
theorem readEntries_entry (readable : Readable path content.length header)
    (inside : offset ≤ raw.length)
    (isRaw : raw.drop offset = header ++ (content ++ (padding content ++ rest))) :
    readEntries raw offset files =
      ensure (safePath (driveName path)) "unsafe tar path" >>= fun _ =>
        ensure (!files.hasKey (driveName path)) "duplicate tar path" >>= fun _ =>
          readEntries raw (offset + header.length + (content.length + (padding content).length))
            (files ++ [(driveName path, content)]) := by
  have lengths := Exchange.Tar.length_of_drop inside isRaw
  rw [readable.length] at lengths
  have isHeader := Exchange.Tar.field_of_drop isRaw
  have isEntry := Exchange.Tar.drop_of_drop isRaw
  rw [readable.length] at isHeader isEntry
  rw [readEntries, if_pos (by omega)]
  simp only [isHeader, readable.nonzero, Bool.false_eq_true, if_false,
    readEntry_written readable (by omega) isEntry, readable.length]
  cases safePath (driveName path) with
  | false => rfl
  | true =>
    cases files.hasKey (driveName path) <;> rfl

theorem readEntries_end (inside : offset ≤ raw.length)
    (isRaw : raw.drop offset = .replicate (block * 2) 0) :
    readEntries raw offset files = .ok files := by
  have split : raw.drop offset = .replicate block 0 ++ (.replicate block 0 ++ []) := by
    rw [isRaw, List.append_nil, List.replicate_append_replicate, Nat.mul_two]
  have lengths := Exchange.Tar.length_of_drop inside split
  have first := Exchange.Tar.field_of_drop split
  have second := Exchange.Tar.field_of_drop (Exchange.Tar.drop_of_drop split)
  have rest := Exchange.Tar.drop_of_drop (Exchange.Tar.drop_of_drop split)
  rw [List.length_append, List.length_nil] at lengths
  rw [List.length_replicate] at lengths first second rest
  rw [readEntries, if_pos (by omega)]
  simp only [first, Exchange.Tar.all_replicate_zero, if_true]
  have isEnd : readEnd raw (offset + block) = .ok () := by
    rw [readEnd, second, rest, Exchange.Tar.all_replicate_zero,
      ensure_bind_of_true (by simpa using by omega)]
    rfl
  rw [isEnd]
  rfl

end Reading

section Loop

variable {raw bytes : Bytes} {pending : Members Bytes}

/-- The files as the drive names them. -/
def named (files : Members Bytes) : Members Bytes :=
  files.map fun file => (driveName file.1, file.2)

theorem not_hasKey_iff {files : Members Bytes} {path : String} :
    (!files.hasKey path) = true ↔ path ∉ files.map Prod.fst := by
  rw [Bool.not_eq_true', ← Bool.not_eq_true, Members.hasKey_iff]

/-- The drive reads the entries of the host under its own names exactly if these are safe and no
two are the same. -/
theorem readEntries_eq_ok_iff (entries : Entries pending bytes) {offset : Nat}
    {files result : Members Bytes} (inside : offset ≤ raw.length)
    (isRaw : raw.drop offset = bytes ++ .replicate (block * 2) 0)
    (distinct : (files.map Prod.fst).Nodup) :
    readEntries raw offset files = .ok result ↔
      (∀ file ∈ pending, safePath (driveName file.1) = true) ∧
        ((files ++ named pending).map Prod.fst).Nodup ∧ result = files ++ named pending := by
  induction entries generalizing offset files with
  | nil =>
    have same : files ++ named [] = files := List.append_nil files
    rw [readEntries_end inside isRaw, same, Except.ok.injEq, eq_comm]
    exact ⟨fun isResult => ⟨List.forall_mem_nil _, distinct, isResult⟩, fun all => all.2.2⟩
  | @cons path content header others rest readable _ inductionHypothesis =>
    simp only [List.append_assoc] at isRaw
    have lengths := Exchange.Tar.length_of_drop inside isRaw
    rw [List.length_append, List.length_append] at lengths
    have behind := Exchange.Tar.drop_of_drop (Exchange.Tar.drop_of_drop
      (Exchange.Tar.drop_of_drop isRaw))
    rw [Nat.add_assoc (offset + header.length)] at behind
    have whole : files ++ named ((path, content) :: others) =
        files ++ [(driveName path, content)] ++ named others := by
      rw [List.append_assoc]
      rfl
    rw [readEntries_entry readable inside isRaw, ensure_bind_eq_ok, ensure_bind_eq_ok,
      not_hasKey_iff, List.forall_mem_cons, whole, and_assoc]
    refine and_congr_right fun _ => ?_
    constructor
    · rintro ⟨fresh, isRead⟩
      refine (inductionHypothesis (by omega) behind ?_).mp isRead
      rw [List.map_append, List.map_singleton, List.nodup_append_comm]
      exact List.nodup_cons.mpr ⟨fresh, distinct⟩
    · rintro ⟨safe, apart, isResult⟩
      have later := apart.sublist ((List.sublist_append_left _ _).map Prod.fst)
      refine ⟨?_, (inductionHypothesis (by omega) behind later).mpr ⟨safe, apart, isResult⟩⟩
      rw [List.map_append, List.map_singleton, List.nodup_append_comm] at later
      exact (List.nodup_cons.mp later).1

end Loop

/-! ### Manifests -/

/-- A natural number in a manifest. -/
def count (value : Nat) : Json := .num (.finite value)

def entryJson (entry : BundleEntry) : Json :=
  .obj [("path", .str entry.path), ("class", .str (className entry.pathClass)),
    ("sha256", .str entry.sha256), ("size", count entry.size)]

/-- What the text of the host's manifest is parsed to; members without a value are left out. -/
def manifestJson (manifest : BundleManifest) : Json :=
  .obj ([("version", count manifest.version), ("seq", count manifest.seq),
    ("createdAt", .str manifest.createdAt), ("kind", .str (kindName manifest.kind)),
    ("entries", .arr (manifest.entries.map entryJson))] ++
    (manifest.lastInboxSeq.map fun seq => ("lastInboxSeq", count seq)).toList ++
    (manifest.truncated.map fun truncated => ("truncated", Json.bool truncated)).toList ++
    (manifest.skippedSymlinks.map fun skipped => ("skippedSymlinks", count skipped)).toList)

section Properties

variable (manifest : BundleManifest)

theorem property_lastInboxSeq :
    property (manifestJson manifest) "lastInboxSeq" = manifest.lastInboxSeq.map count := by
  obtain ⟨_, _, _, _, _, seq, truncated, skipped⟩ := manifest
  cases seq <;> cases truncated <;> cases skipped <;> rfl

theorem property_truncated :
    property (manifestJson manifest) "truncated" = manifest.truncated.map Json.bool := by
  obtain ⟨_, _, _, _, _, seq, truncated, skipped⟩ := manifest
  cases seq <;> cases truncated <;> cases skipped <;> rfl

theorem property_skippedSymlinks :
    property (manifestJson manifest) "skippedSymlinks" = manifest.skippedSymlinks.map count := by
  obtain ⟨_, _, _, _, _, seq, truncated, skipped⟩ := manifest
  cases seq <;> cases truncated <;> cases skipped <;> rfl

theorem safeInteger?_count {least : ℤ} {value : Nat} (enough : least ≤ value)
    (small : value ≤ maxSafeSequence) : safeInteger? least (count value) = some (value : ℤ) := by
  rw [count, safeInteger?, if_pos]
  · rw [Rat.num_natCast]
  · rw [Rat.num_natCast, Rat.den_natCast, Int.natAbs_natCast]
    exact ⟨rfl, enough, small⟩

theorem className_injective : Function.Injective className := by
  intro first second same
  cases first <;> cases second <;> first | rfl | exact absurd same (by decide)

end Properties

theorem isDigest_of_validDigest {digest : String} (valid : Exchange.validDigest digest = true) :
    isDigest digest = true := by
  rw [Exchange.validDigest, Bool.and_eq_true, beq_iff_eq] at valid
  obtain ⟨size, hexadecimal⟩ := valid
  have ascii : ∀ character ∈ digest.toList, character.toNat < 128 := by
    intro character member
    have isHex := List.all_eq_true.mp hexadecimal character member
    simp only [Char.isDigit, Bool.or_eq_true, Bool.and_eq_true, decide_eq_true_eq] at isHex
    rcases isHex with ⟨-, isDigit⟩ | ⟨-, isLetter⟩
    · exact Nat.lt_of_le_of_lt (UInt32.le_iff_toNat_le.mp isDigit) (by decide)
    · exact Nat.lt_of_le_of_lt (UInt32.le_iff_toNat_le.mp isLetter) (by decide)
  have long : digest.length = 64 := by
    rw [← size, ← String.size_toByteArray, ← String.utf8Encode_toList, List.utf8Encode,
      List.size_toByteArray]
    exact (Utf8.length_encode_ascii ascii).symm
  rw [isDigest, Bool.and_eq_true, beq_iff_eq]
  exact ⟨long, hexadecimal⟩

theorem safePath_of_safe {path : String} (safe : safeRelativePath path = true) :
    safePath path = true := by
  simp only [safeRelativePath, Bool.and_eq_true, Bool.not_eq_true', List.any_eq_false,
    List.all_eq_true, Bool.or_eq_true, not_or, beq_iff_eq] at safe
  obtain ⟨⟨⟨present, relative⟩, plain⟩, safeParts⟩ := safe
  simp only [safePath, Bool.and_eq_true, Bool.not_eq_true', List.any_eq_false, List.all_eq_true,
    beq_iff_eq]
  refine ⟨⟨⟨⟨present, relative⟩, fun character member => (plain character member).1⟩,
    fun character member => (plain character member).2⟩, fun part member => ?_⟩
  have isSafe := safeParts part member
  simp only [Exchange.safeComponent, Bool.and_eq_true] at isSafe
  exact isSafe.1.1.1.1.1

/-- What the host's checks of an entry give the drive. -/
structure Sendable (host : ArchiveRuntime) (kind : BundleKind) (files : Members Bytes)
    (entry : BundleEntry) : Prop where
  safe : safeRelativePath entry.path = true
  notManifest : entry.path ≠ "manifest.json"
  classified : classifyPath entry.path = some entry.pathClass
  sizeFits : entry.size ≤ maxSafeSequence
  digest : Exchange.validDigest entry.sha256 = true
  payload : ∀ content, files.get entry.path = some content →
    content.length = entry.size ∧ host.sha256Hex content = entry.sha256
  missing : files.get entry.path = none → kind = .outbox ∧ entry.pathClass.isConfig = true

theorem sendable_of_validateEntry {host : ArchiveRuntime} {kind : BundleKind}
    {files : Members Bytes} {seen : List BundleEntry} {entry : BundleEntry}
    (valid : Exchange.validateEntry host.toBundleRuntime kind files seen entry = .ok ()) :
    Sendable host kind files entry ∧ ∀ other ∈ seen, other.path ≠ entry.path := by
  obtain ⟨known, -⟩ := Exchange.validateEntry_eq_ok _ valid
  simp only [Exchange.validateEntry, ensure_bind_eq_ok, Bool.not_eq_true', List.any_eq_false,
    Bool.or_eq_true, beq_iff_eq, not_or] at valid
  obtain ⟨-, apart, -, -, -, present⟩ := valid
  refine ⟨⟨known.safe, known.notManifest, known.classified, known.sizeFits.1, known.digest,
    known.payload, fun isNone => ?_⟩, fun other member => (apart other member).1⟩
  rw [isNone] at present
  simpa using present

theorem sendable_of_validateEntries {host : ArchiveRuntime} {kind : BundleKind}
    {files : Members Bytes} {seen entries : List BundleEntry}
    (valid : Exchange.validateEntries host.toBundleRuntime kind files seen entries = .ok ()) :
    (∀ entry ∈ entries, Sendable host kind files entry) ∧
      (entries.map BundleEntry.path).Nodup ∧
      ∀ entry ∈ entries, ∀ other ∈ seen, other.path ≠ entry.path := by
  induction entries generalizing seen with
  | nil => exact ⟨List.forall_mem_nil _, List.nodup_nil, List.forall_mem_nil _⟩
  | cons entry entries inductionHypothesis =>
    rw [Exchange.validateEntries, check_bind_eq_ok] at valid
    obtain ⟨sendable, distinct⟩ := sendable_of_validateEntry valid.1
    obtain ⟨others, nodup, apart⟩ := inductionHypothesis valid.2
    refine ⟨List.forall_mem_cons.2 ⟨sendable, others⟩, ?_,
      List.forall_mem_cons.2 ⟨distinct, fun later member other isSeen =>
        apart later member other (List.mem_cons_of_mem _ isSeen)⟩⟩
    rw [List.map_cons, List.nodup_cons]
    refine ⟨fun isLater => ?_, nodup⟩
    obtain ⟨later, member, same⟩ := List.mem_map.1 isLater
    exact apart later member entry List.mem_cons_self same.symm

section Checking

variable {host : ArchiveRuntime} {drive : DriveRuntime} {kind : BundleKind} {files : Members Bytes}

theorem entryFields_entryJson {seen : List String} {entry : BundleEntry}
    (sendable : Sendable host kind files entry) (fresh : entry.path ∉ seen) :
    entryFields drive seen (entryJson entry) = .ok (entry.path, entry.pathClass) := by
  have isPath : property (entryJson entry) "path" = some (.str entry.path) := rfl
  have isClass : property (entryJson entry) "class" = some (.str (className entry.pathClass)) := rfl
  have isSha : property (entryJson entry) "sha256" = some (.str entry.sha256) := rfl
  have isSize : property (entryJson entry) "size" = some (count entry.size) := rfl
  have isNumber := safeInteger?_count (Int.natCast_nonneg entry.size) sendable.sizeFits
  rw [entryFields, isPath]
  dsimp only
  rw [Live.classify_of_classifyPath sendable.classified]
  dsimp only
  rw [isClass, isSha, isSize, printed, Option.map_some, Option.getD_some, drive.textOf_str,
    isDigest_of_validDigest sendable.digest, Option.bind_some, isNumber,
    safePath_of_safe sendable.safe, ensure_bind_of_true]
  · rfl
  · simp [sendable.notManifest, fresh]

/-- What both sides know of each other: they compute one digest, and the host's text of a manifest
is parsed to the manifest. -/
structure Reads (host : ArchiveRuntime) (drive : DriveRuntime) : Prop where
  digests : drive.sha256Hex = host.sha256Hex
  manifests : ∀ manifest bytes, host.toVec manifest = .ok bytes → ∃ text,
    bytes = Utf8.encode text ∧ text.head? ≠ some mark ∧
      drive.parse text = some (manifestJson manifest)

theorem checkPayload_entryJson (reads : Reads host drive) {entry : BundleEntry}
    (sendable : Sendable host kind files entry) {manifestBytes : Bytes} :
    checkPayload drive kind (("manifest.json", manifestBytes) :: files) (entryJson entry) entry.path
      entry.pathClass = .ok () := by
  have isSha : property (entryJson entry) "sha256" = some (.str entry.sha256) := rfl
  have isSize : property (entryJson entry) "size" = some (count entry.size) := rfl
  have isNumber := safeInteger?_count (Int.natCast_nonneg entry.size) sendable.sizeFits
  have isContent : Members.get (("manifest.json", manifestBytes) :: files) entry.path =
      files.get entry.path := by
    rw [Members.get_cons, if_neg sendable.notManifest.symm]
  rw [checkPayload, isContent, isSha, isSize, Option.bind_some, isNumber, ensure_eq_ok]
  cases content : files.get entry.path with
  | none =>
    obtain ⟨rfl, isConfig⟩ := sendable.missing content
    rw [isConfig]
    rfl
  | some bytes =>
    obtain ⟨isLength, isDigest⟩ := sendable.payload bytes content
    rw [Option.any_some, reads.digests, isLength, isDigest]
    simp

theorem checkEntries_entryJson (reads : Reads host drive) {manifestBytes : Bytes}
    {seen : List String} {entries : List BundleEntry}
    (sendable : ∀ entry ∈ entries, Sendable host kind files entry)
    (distinct : (seen ++ entries.map BundleEntry.path).Nodup) :
    checkEntries drive kind (("manifest.json", manifestBytes) :: files) seen
      (entries.map entryJson) = .ok (seen ++ entries.map BundleEntry.path) := by
  induction entries generalizing seen with
  | nil => rw [List.map_nil, List.map_nil, List.append_nil, checkEntries]
  | cons entry entries inductionHypothesis =>
    rw [List.forall_mem_cons] at sendable
    have fresh : entry.path ∉ seen := fun isSeen =>
      (List.nodup_append.mp distinct).2.2 entry.path isSeen entry.path List.mem_cons_self rfl
    have next : seen ++ [entry.path] ++ entries.map BundleEntry.path =
        seen ++ (entry :: entries).map BundleEntry.path := by
      rw [List.append_assoc]
      rfl
    rw [List.map_cons, checkEntries, entryFields_entryJson sendable.1 fresh, ok_bind]
    dsimp only
    rw [checkPayload_entryJson reads sendable.1, ok_bind,
      inductionHypothesis sendable.2 (next ▸ distinct), next]

/-- Of the fields of a manifest that the host checks, only the date can be refused. -/
theorem manifestFields_manifestJson {manifest : BundleManifest} (isVersion : manifest.version = 1)
    (seqFits : manifest.seq ≠ 0 ∧ manifest.seq ≤ maxSafeSequence) :
    manifestFields drive (manifestJson manifest) =
      ensure (drive.dateParse manifest.createdAt).isSome "invalid bundle manifest fields" >>=
        fun _ => .ok (manifest.kind, manifest.entries.map entryJson) := by
  have isVersionJson : property (manifestJson manifest) "version" = some (.num (.finite 1)) := by
    change some (count manifest.version) = _
    rw [isVersion]
    rfl
  have isSeq : property (manifestJson manifest) "seq" = some (count manifest.seq) := rfl
  have isDate : property (manifestJson manifest) "createdAt" = some (.str manifest.createdAt) := rfl
  have isKind : property (manifestJson manifest) "kind" = some (.str (kindName manifest.kind)) := rfl
  have isEntries : property (manifestJson manifest) "entries" =
      some (.arr (manifest.entries.map entryJson)) := rfl
  have isFound : [BundleKind.inbox, .outbox].find? (fun kind =>
      some (Json.str (kindName manifest.kind)) == some (.str (kindName kind))) =
      some manifest.kind := by
    cases manifest.kind <;> rfl
  have least : (1 : ℤ) ≤ manifest.seq := by
    have positive := Nat.pos_of_ne_zero seqFits.1
    omega
  rw [manifestFields, isVersionJson, isSeq, isDate, isKind, isEntries, isFound, Option.bind_some,
    Option.bind_some, Option.bind_some, safeInteger?_count least seqFits.2]
  simp only [Json.asArray?, Json.asString?, Option.any_some, beq_self_eq_true, Bool.true_and,
    Option.isSome_some]
  rfl

theorem safeInteger?_map_count {value : Option Nat}
    (fits : ∀ number, value = some number → number ≤ maxSafeSequence) :
    ((value.map count).all fun number => (safeInteger? 0 number).isSome) = true := by
  cases value with
  | none => rfl
  | some number =>
    rw [Option.map_some, Option.all_some,
      safeInteger?_count (Int.natCast_nonneg _) (fits number rfl)]
    rfl

theorem parseManifest_toVec (reads : Reads host drive) {manifest : BundleManifest}
    {manifestBytes : Bytes} (isVec : host.toVec manifest = .ok manifestBytes)
    (valid : validateManifest host.toBundleRuntime manifest files = .ok ()) :
    parseManifest drive manifestBytes (("manifest.json", manifestBytes) :: files) =
      ensure (drive.dateParse manifest.createdAt).isSome "invalid bundle manifest fields" >>=
        fun _ => .ok (manifestJson manifest, manifest.kind) := by
  obtain ⟨text, isText, noMark, isJson⟩ := reads.manifests manifest manifestBytes isVec
  simp only [validateManifest, check_bind_eq_ok, ensure_eq_ok, Bool.and_eq_true, bne_iff_ne,
    beq_iff_eq, decide_eq_true_eq, Option.all_eq_true, List.all_eq_true, Bool.or_eq_true,
    List.any_eq_true] at valid
  obtain ⟨⟨⟨isVersion, nonzero⟩, seqFits⟩, -, -, ⟨lastFits, skippedFits⟩, entries, listed⟩ := valid
  obtain ⟨sendable, distinct, -⟩ := sendable_of_validateEntries entries
  have isTruncated : ((manifest.truncated.map Json.bool).all Json.isBool) = true := by
    cases manifest.truncated <;> rfl
  have isListed : ((("manifest.json", manifestBytes) :: files).all fun file =>
      file.1 == "manifest.json" || ([] ++ manifest.entries.map BundleEntry.path).contains file.1) =
      true := by
    refine List.all_eq_true.mpr (List.forall_mem_cons.mpr ⟨rfl, fun file member => ?_⟩)
    rw [Bool.or_eq_true, beq_iff_eq, List.contains_iff_mem, List.nil_append]
    refine (listed file member).imp id ?_
    rintro ⟨entry, isEntry, same⟩
    exact List.mem_map.mpr ⟨entry, isEntry, same⟩
  have isObject : ((manifestJson manifest).asObject?.isSome ||
      (manifestJson manifest).asArray?.isSome) = true := rfl
  rw [parseManifest, isText, Utf8.decodeFatal_encode_eq, Option.bind_some,
    (Utf8.unmarked_eq_self_iff text).mpr noMark, isJson]
  dsimp only
  rw [ensure_bind_of_true isObject, manifestFields_manifestJson isVersion ⟨nonzero, seqFits⟩]
  cases (drive.dateParse manifest.createdAt).isSome with
  | false => rfl
  | true =>
    rw [ensure_bind_of_true rfl, ensure_bind_of_true rfl, ok_bind]
    dsimp only
    rw [property_lastInboxSeq, property_skippedSymlinks, property_truncated,
      ensure_bind_of_true (safeInteger?_map_count lastFits),
      ensure_bind_of_true (safeInteger?_map_count skippedFits), ensure_bind_of_true isTruncated,
      ← isText, checkEntries_entryJson reads sendable distinct, ok_bind,
      ensure_bind_of_true isListed]
    rfl

/-! ### Bundles -/

/-- What the host wrote, for the drive. -/
theorem exists_entries {manifest : BundleManifest} {tar : Bytes}
    (written : writeBundleTar host manifest files = .ok tar) : ∃ manifestBytes bytes,
      tar = bytes ++ .replicate (block * 2) 0 ∧ host.toVec manifest = .ok manifestBytes ∧
      validateManifest host.toBundleRuntime manifest files = .ok () ∧
      tar.length ≤ maxBytes manifest.kind ∧
      (∀ file ∈ files, safeRelativePath file.1 = true) ∧
      Entries (("manifest.json", manifestBytes) :: files) bytes := by
  obtain ⟨manifestBytes, bytes, isTar, known⟩ := Exchange.writeBundleTar_eq_ok written
  have checked := Exchange.validateManifest_eq_ok _ known.valid
  have safe : ∀ file ∈ files, safeRelativePath file.1 = true := by
    intro file member
    rcases checked.listed file member with isName | ⟨entry, isEntry, same⟩
    · exact isName ▸ Exchange.safe_manifest
    · exact same ▸ (checked.entries entry isEntry).safe
  have fits : tar.length ≤ maxBytes manifest.kind := by
    rw [isTar, List.length_append, List.length_replicate]
    exact known.fits
  refine ⟨manifestBytes, bytes, isTar, known.isManifest, known.valid, fits, safe, ?_⟩
  rw [writeBundleTar, check_bind_eq_ok, bind_eq_ok] at written
  obtain ⟨-, vec, isVec, written⟩ := written
  obtain rfl : vec = manifestBytes := by
    rw [known.isManifest] at isVec
    exact (Except.ok.inj isVec).symm
  rw [ensure_bind_eq_ok] at written
  obtain ⟨-, written⟩ := written
  split at written
  next total isTotal =>
    rw [ensure_bind_eq_ok, bind_eq_ok] at written
    obtain ⟨-, appended, isAppended, written⟩ := written
    obtain ⟨own, same, entries⟩ := entries_of_append
      (List.forall_mem_cons.mpr ⟨Exchange.safe_manifest, safe⟩) isAppended
    have whole : own ++ List.replicate (block * 2) 0 = bytes ++ List.replicate (block * 2) 0 := by
      rw [← isTar, ← Except.ok.inj written, same]
      rfl
    exact List.append_cancel_right whole ▸ entries
  · cases written

end Checking

theorem driveName_manifest : driveName "manifest.json" = "manifest.json" := by
  decide

theorem safePath_manifest : safePath "manifest.json" = true := by
  decide

theorem named_eq_self_iff {files : Members Bytes} :
    named files = files ↔ ∀ file ∈ files, driveName file.1 = file.1 := by
  have same (file : String × Bytes) : (driveName file.1, file.2) = file ↔
      driveName file.1 = file.1 := by
    rw [Prod.ext_iff]
    exact and_iff_left rfl
  calc named files = files
    _ ↔ files.map (fun file => (driveName file.1, file.2)) = files.map id := by
        rw [List.map_id, named]
    _ ↔ _ := by simp only [List.map_inj_left, id_eq, same]

theorem Entries.isNamed {files : Members Bytes} {bytes : Bytes} (entries : Entries files bytes) :
    ∀ file ∈ files, driveName file.1 = file.1 ↔ Unmarked file.1 := by
  induction entries with
  | nil => exact List.forall_mem_nil _
  | cons readable _ inductionHypothesis =>
    exact List.forall_mem_cons.mpr ⟨readable.isNamed, inductionHypothesis⟩

theorem parseTar_written {files : Members Bytes} {bytes : Bytes} {limit : Nat}
    (entries : Entries files bytes)
    (fits : (bytes ++ List.replicate (block * 2) 0).length ≤ limit) (result : Members Bytes) :
    parseTar (bytes ++ .replicate (block * 2) 0) limit = .ok result ↔
      (∀ file ∈ files, safePath (driveName file.1) = true) ∧ ((named files).map Prod.fst).Nodup ∧
        result = named files := by
  have small : (!decide (limit < (bytes ++ List.replicate (block * 2) 0).length)) = true := by
    simpa using fits
  rw [parseTar, ensure_bind_of_true small]
  exact @readEntries_eq_ok_iff _ _ _ entries 0 [] result (Nat.zero_le _) rfl List.nodup_nil

section Written

variable {host : ArchiveRuntime} {drive : DriveRuntime} {manifest : BundleManifest}
  {files : Members Bytes} {tar : Bytes}

theorem limit_eq (kind : BundleKind) : (if (some kind == some BundleKind.inbox) = true then
    Exchange.maxInboxBytes else Exchange.maxOutboxBytes) = maxBytes kind := by
  cases kind <;> rfl

theorem named_manifest (manifestBytes : Bytes) (files : Members Bytes) :
    named (("manifest.json", manifestBytes) :: files) =
      ("manifest.json", manifestBytes) :: named files := by
  rw [named, List.map_cons, driveName_manifest]
  rfl

theorem get_manifest (manifestBytes : Bytes) (files : Members Bytes) :
    Members.get (("manifest.json", manifestBytes) :: files) "manifest.json" =
      some manifestBytes := by
  rw [Members.get_cons, if_pos rfl]

/-- The drive reads what the host wrote under names that the drive keeps. -/
theorem parse_of_unmarked (reads : Reads host drive) (distinct : (files.map Prod.fst).Nodup)
    (written : writeBundleTar host manifest files = .ok tar)
    (absent : files.hasKey "manifest.json" = false) (noMarks : ∀ file ∈ files, Unmarked file.1)
    (isDate : (drive.dateParse manifest.createdAt).isSome = true) :
    ∃ manifestBytes, host.toVec manifest = .ok manifestBytes ∧
      parseBundleTar drive tar (some manifest.kind) =
        .ok ⟨manifestJson manifest, ("manifest.json", manifestBytes) :: files, tar⟩ := by
  obtain ⟨manifestBytes, bytes, rfl, isVec, valid, fits, safe, entries⟩ := exists_entries written
  have isNamed := (List.forall_mem_cons.mp entries.isNamed).2
  have own : named files = files := named_eq_self_iff.mpr fun file member =>
    (isNamed file member).mpr (noMarks file member)
  have safeNames : ∀ file ∈ ("manifest.json", manifestBytes) :: files,
      safePath (driveName file.1) = true := by
    have safeManifest : safePath (driveName "manifest.json") = true := by
      rw [driveName_manifest]
      exact safePath_manifest
    refine List.forall_mem_cons.mpr ⟨safeManifest, fun file member => ?_⟩
    rw [(isNamed file member).mpr (noMarks file member)]
    exact safePath_of_safe (safe file member)
  have apart : ((("manifest.json", manifestBytes) :: files).map Prod.fst).Nodup := by
    rw [List.map_cons, List.nodup_cons, ← Members.hasKey_iff, Bool.not_eq_true]
    exact ⟨absent, distinct⟩
  have isRead := (parseTar_written entries fits (("manifest.json", manifestBytes) :: files)).mpr
  rw [named_manifest, own] at isRead
  refine ⟨manifestBytes, isVec, ?_⟩
  rw [parseBundleTar, limit_eq, isRead ⟨safeNames, apart, rfl⟩, ok_bind]
  dsimp only
  rw [get_manifest]
  dsimp only
  rw [parseManifest_toVec reads isVec valid, isDate, ensure_bind_of_true rfl, ok_bind]
  dsimp only
  rw [ensure_bind_of_true (by simp)]
  rfl

end Written

def bareText : List Char :=
  ("\x7b\"version\":1,\"seq\":1,\"createdAt\":\"2026-01-01T00:00:00Z\"," ++
    "\"kind\":\"inbox\",\"entries\":[]\x7d").toList

/-- A host that knows the text of the one manifest. -/
def bareHost : ArchiveRuntime where
  sha256Hex _ := ""
  timestamp _ := some 1767225600
  lowercase := id
  allocates _ := true
  toVec manifest :=
    if manifest = Exchange.bareManifest then .ok (Utf8.encode bareText) else .error "unknown"
  fromSlice _ := some Exchange.bareManifest
  fromSlice_toVec manifest bytes isVec := by
    by_cases same : manifest = Exchange.bareManifest
    · rw [same]
    · simp [same] at isVec

def parseBare (text : List Char) : Option Json :=
  if text = bareText then some (manifestJson Exchange.bareManifest) else none

theorem parseBare_bareText : parseBare bareText = some (manifestJson Exchange.bareManifest) :=
  if_pos rfl

def bareDrive : DriveRuntime where
  dateParse _ := some 1767225600000
  parse := parseBare
  textOf value := (value.asString?).getD ""
  sha256Hex _ := ""
  textOf_str _ := rfl

theorem reads_bare : Reads bareHost bareDrive := by
  refine ⟨rfl, fun manifest bytes isVec => ?_⟩
  by_cases same : manifest = Exchange.bareManifest
  · subst same
    exact ⟨bareText, (Except.ok.inj isVec).symm, by decide, parseBare_bareText⟩
  · simp [bareHost, same] at isVec

theorem writeBundleTar_bare :
    ∃ tar, writeBundleTar bareHost Exchange.bareManifest [] = .ok tar := by
  have isWritten : (writeBundleTar bareHost Exchange.bareManifest []).toOption.isSome = true := by
    decide +kernel
  cases written : writeBundleTar bareHost Exchange.bareManifest [] with
  | error message =>
    rw [written] at isWritten
    cases isWritten
  | ok tar => exact ⟨tar, rfl⟩

end AiSwitcher.LiveBundle
