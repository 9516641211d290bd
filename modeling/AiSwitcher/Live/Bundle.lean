/-
This file embeds the reader of bundles on the drive (`parseBundleTar` of `src/live/bundle.ts`), which
takes the archives that the host writes. It reads the same tar format as the host's own reader and
asks for less: it knows no link targets, no padding and no number of entries. A text of the archive
loses a byte order mark in front of it.

A manifest stays the value that `JSON.parse` made of it.
-/

import AiSwitcher.Exchange.Bundle
import AiSwitcher.Live.PathClasses

namespace AiSwitcher.LiveBundle

open JavaScript
open Utf8 (Bytes)
open Fields (field)
open Exchange (BundleKind PathClass pathParts maxBytes)
open Exchange.Tar (block headerChecksum fromOctal)
open Host (maxSafeSequence)

/-- What the drive takes from its platform: `Date.parse`, `JSON.parse`, how a value is printed and
SHA-256 in hexadecimal digits. -/
structure DriveRuntime where
  dateParse : String → Option ℤ
  parse : List Char → Option Json
  textOf : Json → String
  sha256Hex : Bytes → String
  textOf_str : ∀ text, textOf (.str text) = text

def safePath (path : String) : Bool :=
  path != "" && !startsWith path "/" && !(path.toList.any fun character => character.toNat == 92) &&
    !(path.toList.any fun character => character.toNat == 0) &&
    (pathParts path).all fun part => part != "" && part != "." && part != ".."

/-! ### The archive -/

def tarString (bytes : Bytes) : Except String String :=
  match Utf8.decodeFatal (bytes.takeWhile (· != 0)) with
  | some text => .ok (.ofList text)
  | none => .error "The encoded data was not valid utf-8"

def tarOctal (bytes : Bytes) : Except String Nat := do
  let text := trim (← tarString bytes)
  ensure (text != "" && text.toList.all fun digit => '0' ≤ digit && digit ≤ '7')
    "invalid tar numeric field"
  ensure (fromOctal text.toList ≤ maxSafeSequence) "tar size is out of range"
  return fromOctal text.toList

/-- `prefix ? prefix + "/" + name : name` -/
def joined (start name : String) : String :=
  if start != "" then start ++ "/" ++ name else name

def readPath (header : Bytes) : Except String String := do
  let storedChecksum ← tarOctal (field header 148 8)
  ensure (storedChecksum == headerChecksum header) "tar header checksum mismatch"
  let name ← tarString (field header 0 100)
  let start ← tarString (field header 345 155)
  ensure (safePath (joined start name)) "unsafe tar path"
  ensure (field header 156 1 == [0] || field header 156 1 == [48])
    "tar contains a non-regular entry"
  if (field header 257 6).any (· != 0) then
    let magic ← tarString (field header 257 6)
    ensure (magic == "ustar") "unsupported tar format"
  return joined start name

/-- The entry whose header ends at an offset: its path, its content and its padded size. -/
def readEntry (raw : Bytes) (offset : Nat) (header : Bytes) (files : Members Bytes) :
    Except String (String × Bytes × Nat) := do
  let path ← readPath header
  ensure (!files.hasKey path) "duplicate tar path"
  let size ← tarOctal (field header 124 12)
  let padded := (size + (block - 1)) / block * block
  ensure (offset + padded ≤ raw.length) "truncated tar entry"
  return (path, field raw offset size, padded)

def readEnd (raw : Bytes) (offset : Nat) : Except String Unit := do
  ensure (offset + block ≤ raw.length && (field raw offset block).all (· == 0))
    "tar must end with two zero blocks"
  ensure (!((raw.drop (offset + block)).any (· != 0))) "non-canonical bytes after tar end"

def readEntries (raw : Bytes) (offset : Nat) (files : Members Bytes) :
    Except String (Members Bytes) :=
  if offset + block ≤ raw.length then
    let header := field raw offset block
    if header.all (· == 0) then do
      readEnd raw (offset + block)
      return files
    else
      match readEntry raw (offset + block) header files with
      | .error message => .error message
      | .ok (path, content, padded) =>
          readEntries raw (offset + block + padded) (files ++ [(path, content)])
  else .error "tar end marker is missing"
termination_by raw.length - offset
decreasing_by simp only [block] at *; omega

def parseTar (raw : Bytes) (limit : Nat) : Except String (Members Bytes) := do
  ensure (!(limit < raw.length)) "bundle exceeds the size limit"
  readEntries raw 0 []

/-! ### The manifest -/

/-- `Number.isSafeInteger(value) && value >= least` -/
def safeInteger? (least : ℤ) : Json → Option ℤ
  | .num (.finite value) =>
      if value.den = 1 ∧ least ≤ value.num ∧ value.num.natAbs ≤ maxSafeSequence then some value.num
      else none
  | _ => none

/-- `value[key]` of a value that is neither `null` nor `undefined`, for a key that no value
inherits. -/
def property (value : Json) (key : String) : Option Json :=
  (value.asObject?.getD []).get key

/-- The name of a class in a manifest. -/
def className : PathClass → String
  | .auth => "auth"
  | .logs => "logs"
  | .configSettings => "config:settings"
  | .configPlugins => "config:plugins"
  | .configIdentity => "config:identity"
  | .ssh => "ssh"

/-- `"undefined"` where there is none. -/
def printed (runtime : DriveRuntime) (value : Option Json) : String :=
  (value.map runtime.textOf).getD "undefined"

/-- `/^[0-9a-f]{64}$/` -/
def isDigest (text : String) : Bool :=
  text.length == 64 && text.toList.all fun character =>
    character.isDigit || ('a' ≤ character && character ≤ 'f')

def kindName : BundleKind → String
  | .inbox => "inbox"
  | .outbox => "outbox"

section Manifest

variable (runtime : DriveRuntime)

/-- The fields of an entry that its checks leave: its path and its class. -/
def entryFields (seen : List String) (entry : Json) : Except String (String × PathClass) :=
  match property entry "path" with
  | some (.str path) =>
      match Live.classify path with
      | .known pathClass => do
          ensure (safePath path && path != "manifest.json" && !seen.contains path &&
            property entry "class" == some (.str (className pathClass)) &&
            isDigest (printed runtime (property entry "sha256")) &&
            ((property entry "size").bind (safeInteger? 0)).isSome) "invalid bundle entry"
          return (path, pathClass)
      | _ => .error "invalid bundle entry"
  -- A path that is no text has no `startsWith`.
  | some (.arr _) | some (.obj _) | some (.bool true) => .error "TypeError"
  | some (.num number) =>
      .error (if number = .finite 0 then "invalid bundle entry" else "TypeError")
  | none | some .null | some (.bool false) => .error "invalid bundle entry"

/-- `configManifestOnly` is an entry of an outbox without a payload. -/
def checkPayload (kind : BundleKind) (files : Members Bytes) (entry : Json) (path : String)
    (pathClass : PathClass) : Except String Unit :=
  let content := files.get path
  let configManifestOnly := kind == .outbox && pathClass.isConfig && content.isNone
  let isPayload := content.any fun content =>
    (property entry "size").bind (safeInteger? 0) == some (content.length : ℤ) &&
      property entry "sha256" == some (.str (runtime.sha256Hex content))
  ensure (configManifestOnly || isPayload) ("bundle payload check failed: " ++ path)

/-- The paths of the entries, after those that have been seen. -/
def checkEntries (kind : BundleKind) (files : Members Bytes) :
    List String → List Json → Except String (List String)
  | seen, [] => .ok seen
  | seen, entry :: entries => do
      let (path, pathClass) ← entryFields runtime seen entry
      checkPayload runtime kind files entry path pathClass
      checkEntries kind files (seen ++ [path]) entries

/-- The fields of a manifest that its first checks leave: its kind and its entries. -/
def manifestFields (manifest : Json) : Except String (BundleKind × List Json) :=
  let isDate := ((property manifest "createdAt").bind Json.asString?).any fun createdAt =>
    (runtime.dateParse createdAt).isSome
  let kind := [BundleKind.inbox, .outbox].find? fun kind =>
    property manifest "kind" == some (.str (kindName kind))
  match kind, (property manifest "entries").bind Json.asArray? with
  | some kind, some entries => do
      ensure (property manifest "version" == some (.num (.finite 1)) &&
        ((property manifest "seq").bind (safeInteger? 1)).isSome && isDate)
        "invalid bundle manifest fields"
      return (kind, entries)
  | _, _ => .error "invalid bundle manifest fields"

/-- A manifest, with its kind. -/
def parseManifest (value : Bytes) (files : Members Bytes) : Except String (Json × BundleKind) := do
  let some manifest := (Utf8.decodeFatal value).bind runtime.parse | .error "invalid bundle manifest"
  ensure ((manifest.asObject?).isSome || (manifest.asArray?).isSome) "invalid bundle manifest"
  let (kind, entries) ← manifestFields runtime manifest
  ensure ((property manifest "lastInboxSeq").all fun seq => (safeInteger? 0 seq).isSome)
    "invalid lastInboxSeq"
  ensure ((property manifest "skippedSymlinks").all fun count => (safeInteger? 0 count).isSome)
    "invalid skippedSymlinks"
  ensure ((property manifest "truncated").all Json.isBool) "invalid truncated flag"
  let seen ← checkEntries runtime kind files [] entries
  ensure (files.all fun file => file.1 == "manifest.json" || seen.contains file.1)
    "unlisted bundle payload"
  return (manifest, kind)

structure Bundle where
  manifest : Json
  files : Members Bytes
  tarBytes : Bytes

def parseBundleTar (raw : Bytes) (kind : Option BundleKind) : Except String Bundle := do
  let limit := if kind == some .inbox then Exchange.maxInboxBytes else Exchange.maxOutboxBytes
  let files ← parseTar raw limit
  let some manifestBytes := files.get "manifest.json" | .error "bundle manifest is missing"
  let (manifest, manifestKind) ← parseManifest runtime manifestBytes files
  ensure (!(kind.any fun kind => manifestKind != kind))
    "bundle kind does not match the requested operation"
  return { manifest, files, tarBytes := raw }

end Manifest

end AiSwitcher.LiveBundle
