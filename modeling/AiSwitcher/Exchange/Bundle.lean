/-
This file embeds the archive of a bundle (`apps/host/crates/core/src/bundle.rs`): a tar file with
the manifest and the payloads, each behind a header of 512 bytes. A path of more than 100 bytes
is split at its last slash into two fields that need no terminator, numbers are octal texts of a
fixed width, and contents are padded to whole blocks.

A map of payloads is listed in the order in which it is written and read. Errors are the texts of
the source. Machine integers have 64 bits.
-/

import AiSwitcher.Exchange.Contract
import AiSwitcher.Library.Fields
import AiSwitcher.Library.Utf8
import Mathlib.Data.Nat.Digits.Defs

namespace AiSwitcher.Exchange

open JavaScript
open Utf8 (Bytes)
open Fields (field patch)

def maxManifestBytes : Nat := 8 * 1024 * 1024

namespace Tar

def block : Nat := 512

/-- `checked_add` -/
def checkedAdd (first second : Nat) : Option Nat :=
  if first + second < 2 ^ 64 then some (first + second) else none

def bytesOf (text : String) : Bytes :=
  Utf8.encode text.toList

/-- `std::str::from_utf8` -/
def fromUtf8 (bytes : Bytes) : Option (List Char) :=
  let text := Utf8.decodeFrom .start bytes
  if Utf8.encode text = bytes then some text else none

/-! ### Reading fields -/

/-- Unicode `White_Space`, which `str::trim` drops. -/
def isRustWhitespace (character : Char) : Bool :=
  let point := character.toNat
  (9 ≤ point && point ≤ 13) || (0x2000 ≤ point && point ≤ 0x200A) ||
    [0x20, 0x85, 0xA0, 0x1680, 0x2028, 0x2029, 0x202F, 0x205F, 0x3000].contains point

def trimRust (text : List Char) : List Char :=
  ((text.dropWhile isRustWhitespace).reverse.dropWhile isRustWhitespace).reverse

def fieldString (bytes : Bytes) : Except String String :=
  match fromUtf8 (bytes.takeWhile (· != 0)) with
  | some text => .ok (.ofList text)
  | none => .error "tar path is not UTF-8"

/-- `u64::from_str_radix(text, 8)` of octal digits, before the range is checked. -/
def fromOctal (digits : List Char) : Nat :=
  digits.foldl (fun value digit => 8 * value + (digit.toNat - 48)) 0

def octal (bytes : Bytes) : Except String Nat :=
  match fromUtf8 (bytes.takeWhile (· != 0)) with
  | none => .error "invalid tar numeric field"
  | some text => do
      let digits := trimRust text
      ensure (digits != [] && digits.all fun digit => '0' ≤ digit && digit ≤ '7')
        "invalid tar numeric field"
      ensure (fromOctal digits < 2 ^ 64) "tar numeric field is out of range"
      .ok (fromOctal digits)

/-- The sum of the bytes of a header, its checksum field read as spaces. -/
def headerChecksum (header : Bytes) : Nat :=
  (header.zipIdx.map fun (byte, index) =>
    if 148 ≤ index ∧ index < 156 then 32 else byte.toNat).sum

def checkMagic (magic : Bytes) : Except String Unit :=
  if magic.all (· == 0) then .ok ()
  else do
    let text ← fieldString magic
    ensure (text == "ustar") "unsupported tar format"

/-- A header has its checksum, and is one of a regular file. -/
def checkHeader (header : Bytes) : Except String Unit := do
  let stored ← octal (field header 148 8)
  ensure (stored == headerChecksum header) "tar header checksum mismatch"
  checkMagic (field header 257 6)
  ensure (field header 156 1 == [0] || field header 156 1 == [48])
    "tar contains a link or non-regular entry"
  ensure ((field header 157 100).all (· == 0)) "tar link target is not permitted"

/-- A prefix and a name. -/
def joinPath (start name : String) : String :=
  if start == "" then name else start ++ "/" ++ name

def readPath (header : Bytes) : Except String String := do
  checkHeader header
  let name ← fieldString (field header 0 100)
  let start ← fieldString (field header 345 155)
  let path := joinPath start name
  ensure (path != "" && safeRelativePath path) "unsafe tar path"
  return path

/-- The entry whose header was read: its path, its content and its padded size. -/
def readEntry (raw : Bytes) (offset : Nat) (header : Bytes) (files : Members Bytes) :
    Except String (String × Bytes × Nat) := do
  let path ← readPath header
  ensure (!files.hasKey path) "duplicate tar path"
  let size ← octal (field header 124 12)
  ensure (!(path == "manifest.json" && maxManifestBytes < size))
    "bundle manifest exceeds the size limit"
  let some rounded := checkedAdd size (block - 1) | .error "tar entry size overflow"
  let padded := rounded / block * block
  let some last := checkedAdd offset padded | .error "tar offset overflow"
  ensure (last ≤ raw.length) "truncated tar entry"
  ensure ((field raw (offset + size) (padded - size)).all (· == 0)) "tar entry has non-zero padding"
  return (path, field raw offset size, padded)

/-- What follows the first block of zeros. -/
def readEnd (raw : Bytes) (offset : Nat) : Except String Unit := do
  ensure (offset + block ≤ raw.length && (field raw offset block).all (· == 0))
    "tar must end with two zero blocks"
  ensure ((raw.drop (offset + block)).all (· == 0)) "non-canonical bytes after tar end"

def readEntries (raw : Bytes) (offset : Nat) (files : Members Bytes) :
    Except String (Members Bytes) :=
  if offset + block ≤ raw.length then
    let header := field raw offset block
    if header.all (· == 0) then do
      readEnd raw (offset + block)
      return files
    else
      match readEntry raw (offset + block) header files with
      | .error message => .error message
      | .ok (path, content, padded) =>
          let files := files ++ [(path, content)]
          if maxBundleEntries + 1 < files.length then .error "tar contains too many entries"
          else readEntries raw (offset + block + padded) files
  else .error "tar end marker is missing"
termination_by raw.length - offset
decreasing_by simp only [block] at *; omega

/-- `parse_tar`: the payloads and the bytes of the manifest. -/
def parseTar (raw : Bytes) (limit : Nat) : Except String (Members Bytes × Bytes) := do
  ensure (!(limit < raw.length || raw.length < block * 3 || raw.length % block != 0))
    "tar size or block alignment is invalid"
  let files ← readEntries raw 0 []
  match files.get "manifest.json" with
  | some manifestBytes => return (files.delete "manifest.json", manifestBytes)
  | none => .error "bundle manifest is missing"

/-! ### Writing fields -/

/-- `{value:0width$o}` -/
def octalText (width value : Nat) : List Char :=
  ((Nat.digits 8 value).reverse.map fun digit => Char.ofNat (48 + digit)).leftpad width '0'

def writeOctal (header : Bytes) (start length value : Nat) : Except String Bytes := do
  let text := Utf8.encode (octalText (length - 1) value) ++ [0]
  ensure (text.length ≤ length) "tar numeric field does not fit"
  return patch header start text

/-- `rfind('/')`: the text before the last slash and the text behind it. -/
def splitLastSlash : List Char → Option (List Char × List Char)
  | [] => none
  | character :: rest =>
      match splitLastSlash rest with
      | some (before, behind) => some (character :: before, behind)
      | none => if character = '/' then some ([], rest) else none

/-- The name and the prefix of a path. -/
def splitPath (path : String) : Except String (Bytes × Bytes) :=
  if (bytesOf path).length ≤ 100 then .ok (bytesOf path, [])
  else
    match splitLastSlash path.toList with
    | none => .error "tar path is too long"
    | some (before, behind) => do
        ensure (!(100 < (Utf8.encode behind).length || 155 < (Utf8.encode before).length))
          "tar path is too long"
        return (Utf8.encode behind, Utf8.encode before)

def tarHeader (path : String) (size : Nat) : Except String Bytes := do
  let (name, start) ← splitPath path
  let header := patch (patch (.replicate block 0) 0 name) 345 start
  let header ← writeOctal header 100 8 0o600
  let header ← writeOctal header 108 8 0
  let header ← writeOctal header 116 8 0
  let header ← writeOctal header 124 12 size
  let header ← writeOctal header 136 12 0
  let header := patch header 148 (.replicate 8 32)
  let header := patch header 156 [48]
  let header := patch header 257 (bytesOf "ustar" ++ [0])
  let header := patch header 263 (bytesOf "00")
  let checksum := (header.map (·.toNat)).sum
  return patch header 148 (Utf8.encode (octalText 6 checksum) ++ [0, 32])

/-- The zeros behind a content. -/
def padding (content : Bytes) : Bytes :=
  .replicate ((block - content.length % block) % block) 0

def appendTarFile (out : Bytes) (path : String) (content : Bytes) : Except String Bytes := do
  let header ← tarHeader path content.length
  return out ++ header ++ content ++ padding content

def checkedTarSize (contentLengths : List Nat) : Option Nat :=
  contentLengths.foldlM (fun total size => do
    let padded := (← checkedAdd size (block - 1)) / block * block
    checkedAdd (← checkedAdd total block) padded) (block * 2)

end Tar

/-! ### Bundles -/

/-- What the archive takes from its libraries: what the checks of a manifest take from them, the
allocator, and the JSON text of a manifest, from which it is read back. -/
structure ArchiveRuntime where
  sha256Hex : Bytes → String
  timestamp : String → Option ℤ
  lowercase : String → String
  allocates : Nat → Bool
  toVec : BundleManifest → Except String Bytes
  fromSlice : Bytes → Option BundleManifest
  fromSlice_toVec : ∀ manifest bytes, toVec manifest = .ok bytes → fromSlice bytes = some manifest

def ArchiveRuntime.toBundleRuntime (runtime : ArchiveRuntime) : BundleRuntime Bytes where
  size := List.length
  sha256Hex := runtime.sha256Hex
  timestamp := runtime.timestamp
  lowercase := runtime.lowercase

structure Bundle where
  manifest : BundleManifest
  files : Members Bytes
  tarBytes : Bytes

variable (runtime : ArchiveRuntime)

def writeBundleTar (manifest : BundleManifest) (files : Members Bytes) : Except String Bytes := do
  validateManifest runtime.toBundleRuntime manifest files
  let manifestBytes ← (runtime.toVec manifest).mapError ("serialise bundle manifest: " ++ ·)
  ensure (manifestBytes.length ≤ maxManifestBytes) "bundle manifest exceeds the size limit"
  let some totalSize := (Tar.checkedTarSize
      (manifestBytes.length :: files.map fun file => file.2.length)).filter
        (· ≤ maxBytes manifest.kind)
    | .error "bundle exceeds the size limit"
  ensure (runtime.allocates totalSize) "cannot allocate bounded bundle archive"
  let tar ← (("manifest.json", manifestBytes) :: files).foldlM
    (fun tar file => Tar.appendTarFile tar file.1 file.2) []
  return tar ++ .replicate (Tar.block * 2) 0

def parseBundleTar (raw : Bytes) (expectedKind : Option BundleKind) : Except String Bundle := do
  let (files, manifestBytes) ← Tar.parseTar raw ((expectedKind.map maxBytes).getD maxOutboxBytes)
  let some manifest := runtime.fromSlice manifestBytes | .error "invalid bundle manifest"
  ensure (!(expectedKind.any fun expected => manifest.kind != expected))
    "bundle kind does not match the requested operation"
  validateManifest runtime.toBundleRuntime manifest files
  return { manifest, files, tarBytes := raw }

end AiSwitcher.Exchange
