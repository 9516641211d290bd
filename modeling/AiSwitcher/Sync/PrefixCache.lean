/-
This file embeds `PrefixCache` of `src/sync/tail-sync.ts`: digests of the leading whole blocks of
histories that only grow, kept in memory and saved beside the sync state. A call is a program over
the actions of the host; before every action the histories may have grown.

What SHA-256 computes is a parameter; only that its digests are of one length is relied on.
-/

import AiSwitcher.Library.Interrupted
import AiSwitcher.Library.Utf8

namespace AiSwitcher.Sync.PrefixCache

open Interrupted
open Utf8 (Bytes)

def BLOCK : Nat := 262144

def WINDOW : Nat := 65536

/-- SHA-256 in hexadecimal. -/
structure Digests where
  sha : Bytes → List Char
  length_sha : ∀ bytes, (sha bytes).length = 64

/-- Digests of the leading whole blocks of one history, with what the history was then. -/
structure PrefixEntry where
  ino : Nat
  size : Nat
  mtimeMs : Nat
  window : List Char
  blocks : List (List Char)

structure Stat where
  ino : Nat
  size : Nat
  mtimeMs : Nat

abbrev Entries := String → Option PrefixEntry

/-- The histories, the cache in memory, and the cache that was saved. -/
structure World where
  content : String → Bytes
  entries : Entries
  dirty : Bool
  touched : String → Bool
  saved : Option Entries

/-! ### Actions of the host -/

inductive Action : Type → Type
  | stat (path : String) : Action Stat
  | readAt (path : String) (position length : Nat) : Action (Option Bytes)
  | entry (path : String) : Action (Option PrefixEntry)
  | setEntry (path : String) (entry : PrefixEntry) : Action Unit
  | touch (path : String) : Action Unit
  | isDirty : Action Bool
  | forget : Action Unit
  | write : Action (Except Unit Unit)
  | clean : Action Unit
  | load : Action Unit

/-- `length` bytes from `position` on. -/
def slice (content : Bytes) (position length : Nat) : Bytes := (content.drop position).take length

/-- What an action answers and does. Modification times are arbitrary; of the entries that are
neither touched nor known to have a file, any may be forgotten; saving may fail, and so may
reading what was saved. -/
def Does (ino : String → Nat) : {Answer : Type} → Action Answer → World → Answer → World → Prop
  | _, .stat path, world, info, after =>
      after = world ∧ info.ino = ino path ∧ info.size = (world.content path).length
  | _, .readAt path position length, world, bytes, after => after = world ∧ bytes =
      if position + length ≤ (world.content path).length then
        some (slice (world.content path) position length)
      else none
  | _, .entry path, world, entry, after => after = world ∧ entry = world.entries path
  | _, .setEntry path entry, world, _, after => after = { world with
      entries := Function.update world.entries path (some entry) }
  | _, .touch path, world, _, after => after = { world with
      dirty := true, touched := Function.update world.touched path true }
  | _, .isDirty, world, dirty, after => after = world ∧ dirty = world.dirty
  | _, .forget, world, _, after => ∃ entries : Entries, after = { world with entries := entries } ∧
      ∀ path, entries path = world.entries path ∨
        world.touched path = false ∧ entries path = none
  | _, .write, world, outcome, after =>
      (outcome = .ok () ∧ after = { world with saved := some world.entries }) ∨
        outcome = .error () ∧ after = world
  | _, .clean, world, _, after => after = { world with dirty := false }
  | _, .load, world, _, after => ∃ entries : Entries,
      (world.saved = some entries ∨ ∀ path, entries path = none) ∧
        after = { world with entries := entries, dirty := false, touched := fun _ => false }

/-- Histories are appended to; nothing else changes. -/
def Grown (before after : World) : Prop :=
  (∀ path, before.content path <+: after.content path) ∧
    after = { before with content := after.content }

def behaviour (ino : String → Nat) : Behaviour Action World := fun _ action before answer after =>
  ∃ grown, Grown before grown ∧ Does ino action grown answer after

/-! ### The cache -/

abbrev Call (Result : Type) : Type 1 := Program Action Unit Result

section Calls

variable (digests : Digests)

def windowOf (path : String) (covered : Nat) : Call (Option (List Char)) := do
  let length := min covered WINDOW
  if length = 0 then return some (digests.sha [])
  else
    let bytes ← Program.perform (.readAt path (covered - length) length)
    return bytes.map digests.sha

/-- The blocks of an entry, if the entry may be used. -/
def knownBlocks (path : String) (info : Stat) :
    Option PrefixEntry → Call (Option (List (List Char)))
  | none => return none
  | some entry =>
      if entry.ino = info.ino ∧ entry.blocks.length * BLOCK ≤ info.size then
        if entry.size = info.size ∧ entry.mtimeMs = info.mtimeMs then return some entry.blocks
        else do
          let window ← windowOf digests path (entry.blocks.length * BLOCK)
          return if window = some entry.window then some entry.blocks else none
      else return none

/-- `missing` more blocks after those that are known. -/
def readBlocks (path : String) : (missing : Nat) → List (List Char) →
    Call (Option (List (List Char)))
  | 0, blocks => return some blocks
  | missing + 1, blocks => do
      match ← Program.perform (.readAt path (blocks.length * BLOCK) BLOCK) with
      | none => return none
      | some bytes => readBlocks path missing (blocks ++ [digests.sha bytes])

/-- `b1:${length}:${blocks.join("")}:${sha(rest)}` -/
def message (length : Nat) (blocks : List (List Char)) (rest : List Char) : List Char :=
  "b1:".toList ++ Nat.toDigits 10 length ++ ':' :: (blocks.flatten ++ ':' :: rest)

/-- The digest of the blocks and of what follows the last of them. -/
def answer (path : String) (length : Nat) (blocks : List (List Char)) : Call (Option (List Char)) := do
  Program.perform (.touch path)
  let need := length / BLOCK
  let rest ← Program.perform (.readAt path (need * BLOCK) (length - need * BLOCK))
  return rest.map fun bytes => digests.sha (Utf8.encode (message length blocks (digests.sha bytes)))

/-- The digest of the first `length` bytes, or nothing when the file is shorter. -/
def prefixOf (path : String) (length : Nat) : Call (Option (List Char)) := do
  let info ← Program.perform (.stat path)
  if info.size < length then return none
  else
    let need := length / BLOCK
    let entry ← Program.perform (.entry path)
    let known ← knownBlocks digests path info entry
    let blocks := known.getD []
    if blocks.length < need then
      match ← readBlocks digests path (need - blocks.length) (blocks.take need) with
      | none => return none
      | some blocks =>
          match ← windowOf digests path (need * BLOCK) with
          | none => return none
          | some window =>
              Program.perform (.setEntry path ⟨info.ino, info.size, info.mtimeMs, window, blocks⟩)
              answer digests path length blocks
    else
      match known, entry with
      | some _, some entry =>
          Program.perform
            (.setEntry path { entry with size := info.size, mtimeMs := info.mtimeMs })
          answer digests path length (blocks.take need)
      | _, _ => answer digests path length (blocks.take need)

def save : Call Unit := do
  if ← Program.perform .isDirty then
    Program.perform .forget
    Program.attempt .write
    Program.perform .clean
  else return ()

/-! ### Sequences of calls -/

inductive Request where
  | prefixOf (path : String) (length : Nat)
  | save
  | load

/-- One call; an error of saving ends that call only. -/
def request : Request → Call (Option (List Char))
  | .prefixOf path length => prefixOf digests path length
  | .save => (save).andThen fun _ => .done none
  | .load => do
      Program.perform .load
      return none

end Calls

/-! ### Without a cache -/

/-- The digests of the first `count` blocks. -/
def blockDigests (digests : Digests) (content : Bytes) (count : Nat) : List (List Char) :=
  (List.range count).map fun index => digests.sha (slice content (index * BLOCK) BLOCK)

/-- What hashing the first `length` bytes gives when nothing is known of them. -/
def hashPrefix (digests : Digests) (content : Bytes) (length : Nat) : List Char :=
  let need := length / BLOCK
  digests.sha (Utf8.encode (message length (blockDigests digests content need)
    (digests.sha (slice content (need * BLOCK) (length - need * BLOCK)))))

end AiSwitcher.Sync.PrefixCache
