/-
This file embeds `apps/host/crates/core/src/contract.rs`: the manifest of a bundle, the
classes of the paths in it and the checks that a manifest and its payloads have to pass.

A text is looked at character by character. The payloads of a bundle are of any kind that
has a size and a digest.
-/

import AiSwitcher.Host.Registry
import AiSwitcher.Library.Control
import AiSwitcher.Library.Json
import AiSwitcher.Library.Text

namespace AiSwitcher.Exchange

open JavaScript
open Host (maxSafeSequence)

/-! ### Manifests -/

def maxInboxBytes : Nat := 64 * 1024 * 1024

def maxOutboxBytes : Nat := 32 * 1024 * 1024

def maxBundleEntries : Nat := 50000

inductive BundleKind where
  | inbox
  | outbox
  deriving DecidableEq

inductive PathClass where
  | auth
  | logs
  | configSettings
  | configPlugins
  | configIdentity
  | ssh
  deriving DecidableEq

def PathClass.isConfig : PathClass → Bool
  | .configSettings | .configPlugins | .configIdentity => true
  | .auth | .logs | .ssh => false

structure BundleEntry where
  path : String
  pathClass : PathClass
  sha256 : String
  size : Nat
  deriving DecidableEq

structure BundleManifest where
  version : Nat
  seq : Nat
  createdAt : String
  kind : BundleKind
  entries : List BundleEntry
  lastInboxSeq : Option Nat
  truncated : Option Bool
  skippedSymlinks : Option Nat
  deriving DecidableEq

/-! ### Safe paths -/

/-- The parts of a path between its slashes. -/
def pathParts (path : String) : List String :=
  (path.toList.splitOn '/').map String.ofList

/-- `char::is_control` -/
def isControl (character : Char) : Bool :=
  character.toNat < 0x20 || (0x7F ≤ character.toNat && character.toNat < 0xA0)

/-- `<>:"|?*` -/
def isReserved (character : Char) : Bool :=
  [60, 62, 58, 34, 124, 63, 42].contains character.toNat

/-- The digits and the superscripts that the names of ports end with. -/
def isPortNumber (number : List Char) : Bool :=
  ["1", "2", "3", "4", "5", "6", "7", "8", "9", "¹", "²", "³"].any fun port =>
    port.toList == number

def safeComponent (part : String) : Bool :=
  let characters := part.toList
  let stem := (characters.takeWhile (· != '.')).map Char.toUpper
  let port := ["COM", "LPT"].any fun name =>
    name.toList.isPrefixOf stem && isPortNumber (stem.drop 3)
  part != "" && part != "." && part != ".." && !endsWith part "." && !endsWith part " " &&
    !(characters.any fun character => isControl character || isReserved character) &&
    !(["CON", "PRN", "AUX", "NUL"].any fun name => name.toList == stem) && !port

def safeRelativePath (path : String) : Bool :=
  path != "" && !startsWith path "/" &&
    !(path.toList.any fun character => character.toNat == 92 || character.toNat == 0) &&
    (pathParts path).all safeComponent

/-! ### Classes -/

-- `src/live/path-classes.json`, which both implementations read.
namespace PathRules

def toolRoots : List String :=
  [".claude", ".codex", ".grok", ".kimi-code", ".pi", ".opencode", ".zai", ".ali"]

def sshRoot : String := ".ssh"

def protectedPaths : List String := [".ais/memory/GLOBAL.md"]

def authNames : List String :=
  [".credentials.json", "auth.json", "credentials.json", "auth.toml", "kimi-code.json",
    "crush.json", "console-cookie.txt"]

def authPaths : List String :=
  [".opencode/data/opencode/auth.json", ".opencode/opencode/auth.json"]

def identityRegistryPaths : List String := [".ais/identities.json"]

def configPaths : List (String × PathClass) :=
  [(".ais/config/sync-v2.json", .configSettings), (".claude/identities.json", .configIdentity),
    (".codex/identities.json", .configIdentity), (".grok/identities.json", .configIdentity),
    (".kimi-code/identities.json", .configIdentity), (".pi/identities.json", .configIdentity),
    (".opencode/identities.json", .configIdentity), (".zai/identities.json", .configIdentity),
    (".ali/identities.json", .configIdentity)]

def identityConfigNames : List String :=
  ["settings.json", "config.toml", "config.json", "models.json", "hooks.json", "identities.json"]

def rootConfigPaths : List (String × PathClass) :=
  [(".claude/settings.json", .configSettings), (".codex/config.toml", .configSettings)]

def sharedConfigDirectories : List String := [".ais/hooks"]

def pluginDirectories : List String := ["plugins"]

def logDirectories : List String := ["projects", "sessions", "logs"]

def sharedLogDirectories : List String := [".ais/logs"]

end PathRules

def below (directory path : String) : Bool :=
  startsWith path (directory ++ "/")

/-- The class of a path below the root of a tool. -/
def classifyRelative (root relative : String) : Option PathClass :=
  let parts := pathParts relative
  let identityRoot := parts.head? == some "identities" && 3 ≤ parts.length
  let configParts := if identityRoot then parts.drop 2 else parts
  let leaf := parts.getLast?.getD relative
  let shallow := identityRoot || parts.length ≤ 2
  let pluginPart := parts.dropLast.contains "plugins"
  let configuredPlugin := PathRules.pluginDirectories.any fun directory =>
    (identityRoot && configParts.contains directory) || below directory relative
  if PathRules.authNames.contains leaf && shallow then some .auth
  else if root == ".opencode" &&
      ["data/opencode/auth.json", "opencode/auth.json"].contains relative then some .auth
  else if root == ".kimi-code" && identityRoot &&
      endsWith relative "/credentials/kimi-code.json" then some .auth
  else if root == ".zai" && leaf == "crush.json" && shallow then some .auth
  else if root == ".ali" && leaf == "console-cookie.txt" && shallow then some .auth
  else if identityRoot && leaf == "identities.json" then some .configIdentity
  else if identityRoot && PathRules.identityConfigNames.contains leaf then
    some (if leaf == "identities.json" then .configIdentity else .configSettings)
  else if (identityRoot && pluginPart) || configuredPlugin then some .configPlugins
  else if configParts.any (PathRules.logDirectories.contains ·) && (identityRoot ||
      [".claude", ".codex", ".grok", ".kimi-code", ".pi"].contains root) then some .logs
  else if root == ".pi" && startsWith relative "agent/sessions/" then some .logs
  else none

def classifyPath (path : String) : Option PathClass :=
  let leaf := (pathParts path).getLast?.getD path
  if !safeRelativePath path then none
  else if [".gguf", ".safetensors", ".onnx", ".pt", ".pth"].any (fun suffix =>
      endsWith (.ofList (leaf.toList.map Char.toLower)) suffix) then none
  else if PathRules.protectedPaths.contains path then none
  else if path == PathRules.sshRoot || below PathRules.sshRoot path then some .ssh
  else if PathRules.identityRegistryPaths.contains path then some .configIdentity
  else
    (PathRules.configPaths.lookup path).or <|
    if PathRules.sharedLogDirectories.any (below · path) then some .logs
    else if PathRules.sharedConfigDirectories.any (below · path) then some .configSettings
    else if PathRules.authPaths.contains path then some .auth
    else
      (PathRules.rootConfigPaths.lookup path).or <|
      match PathRules.toolRoots.find? (below · path) with
      | some root => classifyRelative root (sliceFrom path (root.length + 1))
      | none => none

/-! ### Valid manifests -/

/-- What the checks take from their libraries: digests of payloads, the Unix seconds of an RFC
3339 date and Unicode lower case. -/
structure BundleRuntime (Content : Type) where
  size : Content → Nat
  sha256Hex : Content → String
  timestamp : String → Option ℤ
  lowercase : String → String

section Validating

variable {Content : Type} (runtime : BundleRuntime Content)

def validDigest (digest : String) : Bool :=
  digest.utf8ByteSize == 64 && digest.toList.all fun character =>
    character.isDigit || ('a' ≤ character && character ≤ 'f')

def maxBytes : BundleKind → Nat
  | .inbox => maxInboxBytes
  | .outbox => maxOutboxBytes

/-- The check of one entry, after the entries that have been seen. -/
def validateEntry (kind : BundleKind) (files : Members Content) (seen : List BundleEntry)
    (entry : BundleEntry) : Except String Unit := do
  ensure (safeRelativePath entry.path && entry.path != "manifest.json") "unsafe bundle entry path"
  ensure (!(seen.any fun other => other.path == entry.path ||
    runtime.lowercase other.path == runtime.lowercase entry.path))
    "duplicate or case-colliding bundle path"
  ensure (classifyPath entry.path == some entry.pathClass)
    "bundle entry class does not match B path-class export"
  ensure (entry.size ≤ maxSafeSequence && entry.size ≤ maxBytes kind)
    "bundle entry size is out of range"
  ensure (validDigest entry.sha256) "invalid bundle entry digest"
  match files.get entry.path with
  | some content =>
      ensure (runtime.size content == entry.size && runtime.sha256Hex content == entry.sha256)
        ("bundle payload size or digest mismatch: " ++ entry.path)
  | none =>
      -- The outbox has only the digests of configuration files.
      ensure (kind == .outbox && entry.pathClass.isConfig)
        ("bundle payload is missing: " ++ entry.path)

def validateEntries (kind : BundleKind) (files : Members Content) :
    List BundleEntry → List BundleEntry → Except String Unit
  | _, [] => .ok ()
  | seen, entry :: entries => do
      validateEntry runtime kind files seen entry
      validateEntries kind files (entry :: seen) entries

def validateManifest (manifest : BundleManifest) (files : Members Content) : Except String Unit := do
  ensure (manifest.version == 1 && manifest.seq != 0 && manifest.seq ≤ maxSafeSequence)
    "unsupported version or unsafe bundle sequence"
  ensure (manifest.createdAt != "" && (runtime.timestamp manifest.createdAt).isSome)
    "invalid bundle timestamp"
  ensure (manifest.entries.length ≤ maxBundleEntries) "bundle has too many manifest entries"
  ensure (manifest.lastInboxSeq.all (· ≤ maxSafeSequence) &&
    manifest.skippedSymlinks.all (· ≤ maxSafeSequence)) "bundle sequence metadata is out of range"
  validateEntries runtime manifest.kind files [] manifest.entries
  ensure (files.all fun file => file.1 == "manifest.json" ||
    manifest.entries.any fun entry => entry.path == file.1) "bundle contains an unlisted payload"

/-- What the checks leave of an entry. -/
structure ValidEntry (kind : BundleKind) (files : Members Content) (entry : BundleEntry) :
    Prop where
  safe : safeRelativePath entry.path = true
  notManifest : entry.path ≠ "manifest.json"
  classified : classifyPath entry.path = some entry.pathClass
  sizeFits : entry.size ≤ maxSafeSequence ∧ entry.size ≤ maxBytes kind
  digest : validDigest entry.sha256 = true
  payload : ∀ content, files.get entry.path = some content →
    runtime.size content = entry.size ∧ runtime.sha256Hex content = entry.sha256

theorem validateEntry_eq_ok {kind : BundleKind} {files : Members Content} {seen : List BundleEntry}
    {entry : BundleEntry} (valid : validateEntry runtime kind files seen entry = .ok ()) :
    ValidEntry runtime kind files entry ∧
      ∀ other ∈ seen, runtime.lowercase other.path ≠ runtime.lowercase entry.path := by
  simp only [validateEntry, ensure_bind_eq_ok, Bool.and_eq_true, bne_iff_ne, beq_iff_eq,
    decide_eq_true_eq, Bool.not_eq_true', List.any_eq_false, Bool.or_eq_true, not_or] at valid
  obtain ⟨⟨safe, notManifest⟩, distinct, classified, sizeFits, digest, payload⟩ := valid
  refine ⟨⟨safe, notManifest, classified, sizeFits, digest, fun content isThere => ?_⟩,
    fun other member => (distinct other member).2⟩
  simpa [isThere] using payload

theorem validateEntries_eq_ok {kind : BundleKind} {files : Members Content}
    {seen entries : List BundleEntry}
    (valid : validateEntries runtime kind files seen entries = .ok ()) :
    (∀ entry ∈ entries, ValidEntry runtime kind files entry) ∧
      (entries.map fun entry => runtime.lowercase entry.path).Nodup ∧
      ∀ entry ∈ entries, ∀ other ∈ seen,
        runtime.lowercase other.path ≠ runtime.lowercase entry.path := by
  induction entries generalizing seen with
  | nil => simp
  | cons entry entries inductionHypothesis =>
    rw [validateEntries, check_bind_eq_ok] at valid
    obtain ⟨validEntry, distinct⟩ := validateEntry_eq_ok runtime valid.1
    obtain ⟨validEntries, nodup, apart⟩ := inductionHypothesis valid.2
    refine ⟨List.forall_mem_cons.2 ⟨validEntry, validEntries⟩, ?_,
      List.forall_mem_cons.2 ⟨distinct, fun later member other isSeen =>
        apart later member other (List.mem_cons_of_mem _ isSeen)⟩⟩
    rw [List.map_cons, List.nodup_cons]
    refine ⟨fun isLater => ?_, nodup⟩
    obtain ⟨later, member, same⟩ := List.mem_map.1 isLater
    exact apart later member entry List.mem_cons_self same.symm

/-- What the checks leave of a manifest and its payloads. -/
structure ValidManifest (manifest : BundleManifest) (files : Members Content) : Prop where
  seqFits : manifest.seq ≠ 0 ∧ manifest.seq ≤ maxSafeSequence
  lastInboxSeqFits : ∀ seq, manifest.lastInboxSeq = some seq → seq ≤ maxSafeSequence
  few : manifest.entries.length ≤ maxBundleEntries
  entries : ∀ entry ∈ manifest.entries, ValidEntry runtime manifest.kind files entry
  distinct : (manifest.entries.map fun entry => runtime.lowercase entry.path).Nodup
  listed : ∀ file ∈ files, file.1 = "manifest.json" ∨
    ∃ entry ∈ manifest.entries, entry.path = file.1

theorem validateManifest_eq_ok {manifest : BundleManifest} {files : Members Content}
    (valid : validateManifest runtime manifest files = .ok ()) :
    ValidManifest runtime manifest files := by
  simp only [validateManifest, check_bind_eq_ok, ensure_eq_ok, Bool.and_eq_true,
    bne_iff_ne, beq_iff_eq, decide_eq_true_eq, Option.all_eq_true, List.all_eq_true,
    Bool.or_eq_true, List.any_eq_true] at valid
  obtain ⟨⟨⟨-, nonzero⟩, seqFits⟩, -, few, ⟨lastInboxSeqFits, -⟩, validEntries, listed⟩ := valid
  obtain ⟨entries, distinct, -⟩ := validateEntries_eq_ok runtime validEntries
  exact ⟨⟨nonzero, seqFits⟩, lastInboxSeqFits, few, entries, distinct, listed⟩

end Validating

end AiSwitcher.Exchange
