/-
This file embeds `write_image` of `apps/host/crates/core/src/device.rs`, the writer that the
helper runs on a drive: it reserves the approval, checks the image, the device and its table,
writes the planned ranges chunk by chunk, looks at the device again around every chunk, and reads
back what it has written.

The device, its operating system, the clock and the user, who may cancel, are the world; the
behaviour of a drive says what they may answer. A write that is interrupted is tried again; the
model gives up on one after a number of rounds.
-/

import AiSwitcher.Host.Device
import AiSwitcher.Library.Interrupted
import AiSwitcher.Library.Storage

namespace AiSwitcher.Device

open Interrupted Program
open Host (ByteRange)

/-! ### The device -/

/-- What a device says to a write. -/
inductive WriteAnswer where
  | accepted (count : Nat)
  | interrupted
  | failed
  deriving DecidableEq

/-- The calls of the writer; `none` is an error. -/
inductive WriterAction : Type → Type
  | now : WriterAction Nat
  | cancelled : WriterAction Bool
  | revalidateSource : WriterAction (Option Unit)
  | lockExclusive : WriterAction (Option Unit)
  | observe : WriterAction (Option DeviceObservation)
  | seek (position : Nat) : WriterAction (Option Unit)
  | write (bytes : Bytes) : WriterAction WriteAnswer
  | flushDurable : WriterAction (Option Unit)
  | readExact (count : Nat) : WriterAction (Option Bytes)
  | readAt (offset count : Nat) : WriterAction (Option Bytes)

inductive WriteFailure where
  | refused (reason : String)
  /-- The confirmed bytes are a lower bound; nothing is said of the others. -/
  | incomplete (confirmedBytes : Nat) (reason : String)
  deriving DecidableEq

/-- How the writer ends without success; `unfinished` when the rounds did not suffice. -/
inductive Stopped where
  | failure (failure : WriteFailure)
  | unfinished
  deriving DecidableEq

abbrev Writer (Result : Type) : Type 1 := Program WriterAction Stopped Result

def refused (reason : String) : Stopped := .failure (.refused reason)

/-- A failure once some bytes may have been written. -/
def failure (written : Nat) (reason : String) : Stopped :=
  .failure (if written = 0 then .refused reason else .incomplete written reason)

/-- A call whose error ends the writer. -/
def orStop {Answer : Type} (action : WriterAction (Option Answer)) (stopped : Stopped) :
    Writer Answer := do
  match ← perform action with
  | some answer => pure answer
  | none => .fail stopped

def stopIf (condition : Bool) (stopped : Stopped) : Writer Unit :=
  if condition then .fail stopped else pure ()

def checked {Result : Type} (outcome : Except DeviceError Result) (stopped : Stopped) :
    Writer Result :=
  match outcome with
  | .ok result => pure result
  | .error _ => .fail stopped

/-! ### The table of the device -/

/-- The windows of the table as they are after what has been written. -/
structure ExpectedTable where
  head : Bytes
  tail : Bytes
  deriving DecidableEq

def overlayWindow (window : Bytes) (windowStart offset : Nat) (bytes : Bytes) : Bytes :=
  if 2 ^ 64 ≤ offset + bytes.length ∨ 2 ^ 64 ≤ windowStart + window.length then window
  else
    let start := max offset windowStart
    let stop := min (offset + bytes.length) (windowStart + window.length)
    if stop ≤ start then window
    else Fields.patch window (start - windowStart)
      ((bytes.drop (start - offset)).take (stop - start))

def ExpectedTable.overlay (table : ExpectedTable) (offset : Nat) (bytes : Bytes)
    (capacity : Nat) : ExpectedTable where
  head := overlayWindow table.head 0 offset bytes
  tail := overlayWindow table.tail (capacity - TABLE_WINDOW_BYTES) offset bytes

def readTableWindows (current : DeviceObservation) (stopped : Stopped) :
    Writer ExpectedTable := do
  let capacity := current.capacityBytes.toNat
  stopIf (capacity < TABLE_WINDOW_BYTES * 2) stopped
  let head ← orStop (.readAt 0 TABLE_WINDOW_BYTES) stopped
  let tail ← orStop (.readAt (capacity - TABLE_WINDOW_BYTES) TABLE_WINDOW_BYTES) stopped
  return ⟨head, tail⟩

section Writing

variable (hashing : Hashing) (image : VerifiedImage) (plan : WritePlan)

/-- The table that was read is the one that is expected and the one that was observed. -/
def tableMatches (current : DeviceObservation) (read expected : ExpectedTable) : Bool :=
  match hashing.tableFingerprint read.head read.tail,
      hashing.tableFingerprint expected.head expected.tail with
  | .ok actual, .ok expectedFingerprint =>
      actual = expectedFingerprint && actual = current.tableFingerprint
  | _, _ => false

def verifyExpectedTable (current : DeviceObservation) (expected : Option ExpectedTable)
    (stopped : Stopped) : Writer Unit := do
  match expected with
  | none => pure ()
  | some expected =>
    let read ← readTableWindows current stopped
    stopIf (!tableMatches hashing current read expected) stopped

def observationStable (current : DeviceObservation) : Bool :=
  plan.device.samePhysicalIdentity current && current.validate = .ok () &&
    current.mountFingerprint = plan.device.mountFingerprint

/-- What has been written, and the table that is expected if the plan minds it. -/
structure Progress where
  written : Nat
  table : Option ExpectedTable
  deriving DecidableEq

/-- The device is still the one of the plan, with the table that is expected. -/
def checkDevice (progress : Progress) : Writer DeviceObservation := do
  let stop := failure progress.written
  let current ← orStop .observe (stop "device disconnected")
  stopIf (!observationStable plan current) (stop "device changed")
  verifyExpectedTable hashing current progress.table (stop "partition table changed")
  return current

/-! ### Writing -/

def CHUNK_BYTES : Nat := 64 * 1024

def BUDGET : Nat := 600 * 10 ^ 9

/-- Cancelled, or the time is over. -/
def timeOver (budget : Nat) : Writer Bool := do
  match ← perform .cancelled with
  | true => return true
  | false =>
    let now ← perform .now
    return decide (BUDGET ≤ now - budget)

/-- What has been written is flushed before the writer gives up. -/
def giveUpWhenOver (budget : Nat) (stopped : Stopped) : Writer Unit := do
  match ← timeOver budget with
  | false => pure ()
  | true =>
    let _ ← perform .flushDurable
    .fail stopped

/-- The bytes of a write, if its source has them. -/
def PlannedWrite.data (write : PlannedWrite) : Bytes :=
  let length := write.range.length.toNat
  match write.source with
  | .image offset => (image.bytes.drop offset.toNat).take length
  | .bytes bytes => bytes
  | .zeroes => List.replicate length 0

def PlannedWrite.expected (write : PlannedWrite) : Except String Bytes :=
  match write.source with
  | .image offset =>
      let stop := offset.toNat + write.range.length.toNat
      if 2 ^ 64 ≤ stop ∨ image.bytes.length < stop then .error "source bounds"
      else .ok (write.data image)
  | _ => .ok (write.data image)

/-- A chunk of the bytes; all are full except for the last. -/
def chunkAt (bytes : Bytes) (length index : Nat) : Bytes :=
  (bytes.drop (index * CHUNK_BYTES)).take (min CHUNK_BYTES (length - index * CHUNK_BYTES))

def chunkCount (length : Nat) : Nat := (length + (CHUNK_BYTES - 1)) / CHUNK_BYTES

def chunks (bytes : Bytes) (length : Nat) : List Bytes :=
  (List.range (chunkCount length)).map (chunkAt bytes length)

/-- What is left of a chunk, and where it goes. -/
structure Remaining where
  bytes : Bytes
  offset : Nat
  progress : Progress
  deriving DecidableEq

/-- Before the first byte the device and the approval are checked once more. -/
def checkMutation (permit : Approval) (progress : Progress) : Writer Unit :=
  if progress.written = 0 then do
    let current ← checkDevice hashing plan progress
    let now ← perform .now
    checked (permit.validateBeforeMutation hashing plan current image now)
      (failure progress.written "confirmation")
  else pure ()

/-- What is left when a device has taken the first bytes of a chunk. -/
def Remaining.advance (left : Remaining) (count capacity : Nat) : Remaining where
  bytes := left.bytes.drop count
  offset := left.offset + count
  progress := {
    written := left.progress.written + count
    table := left.progress.table.map fun table =>
      table.overlay left.offset (left.bytes.take count) capacity }

/-- One round of writing a chunk; `capacity` is that of the device at its start. -/
def writeRound (permit : Approval) (budget capacity : Nat) (left : Remaining) :
    Writer (Remaining ⊕ Progress) :=
  if left.bytes.isEmpty then pure (.inr left.progress)
  else do
    let stop := failure left.progress.written
    giveUpWhenOver budget (stop "cancelled or timed out")
    checkMutation hashing image plan permit left.progress
    match ← perform (.write left.bytes) with
    | .accepted count =>
      if count = 0 then .fail (stop "zero-length write")
      else if left.bytes.length < count then .fail (stop "invalid write result")
      else pure (.inl (left.advance count capacity))
    | .interrupted => pure (.inl left)
    | .failed => .fail (stop "write failed")

def writeChunk (rounds : Nat) (permit : Approval) (budget : Nat) (chunk : Bytes) (offset : Nat)
    (progress : Progress) : Writer Progress := do
  let stop := failure progress.written
  giveUpWhenOver budget (stop "cancelled or timed out")
  let current ← checkDevice hashing plan progress
  stopIf (2 ^ 64 ≤ offset) (stop "write bounds")
  match ← iterate (writeRound hashing image plan permit budget current.capacityBytes.toNat) rounds
      ⟨chunk, offset, progress⟩ with
  | none => .fail .unfinished
  | some progress =>
    let _ ← checkDevice hashing plan progress
    return progress

def writeChunks (rounds : Nat) (permit : Approval) (budget start : Nat) :
    List (Bytes × Nat) → Progress → Writer Progress
  | [], progress => pure progress
  | (chunk, index) :: rest, progress => do
    let progress ← writeChunk hashing image plan rounds permit budget chunk
      (start + index * CHUNK_BYTES) progress
    writeChunks rounds permit budget start rest progress

/-- Every chunk is read and compared. -/
def readBack (budget written : Nat) : List Bytes → Writer Unit
  | [] => pure ()
  | expected :: rest => do
    let stop := failure written
    let late ← timeOver budget
    stopIf late (stop "readback cancelled or timed out")
    let readback ← orStop (.readExact expected.length) (stop "readback failed")
    stopIf (readback ≠ expected) (stop "readback mismatch")
    readBack budget written rest

/-- Until a byte is written the file of the image is checked before each range. -/
def revalidateFirst (written : Nat) : Writer Unit :=
  if written = 0 then orStop .revalidateSource (refused "image source changed") else pure ()

/-- Write one range, flush it and read it back. -/
def writeRange (rounds : Nat) (permit : Approval) (budget : Nat) (write : PlannedWrite)
    (progress : Progress) : Writer Progress := do
  let start := write.range.start.toNat
  revalidateFirst progress.written
  match write.expected image with
  | .error reason => .fail (failure progress.written reason)
  | .ok bytes =>
    let chunks := chunks bytes write.range.length.toNat
    orStop (.seek start) (failure progress.written "seek")
    let progress ← writeChunks hashing image plan rounds permit budget start chunks.zipIdx progress
    orStop .flushDurable (failure progress.written "flush failed")
    orStop (.seek start) (failure progress.written "readback seek")
    readBack budget progress.written chunks
    return progress

def writeRanges (rounds : Nat) (permit : Approval) (budget : Nat) :
    List PlannedWrite → Progress → Writer Progress
  | [], progress => pure progress
  | write :: rest, progress => do
    let progress ← writeRange hashing image plan rounds permit budget write progress
    writeRanges rounds permit budget rest progress

/-- The table to expect, if the plan minds the table of the device. -/
def expectTable (current : DeviceObservation) : Writer (Option ExpectedTable) :=
  if plan.phaseAware then do
    let table ← readTableWindows current (refused "partition table read")
    let observed ← checked (hashing.tableFingerprint table.head table.tail)
      (refused "partition table read")
    stopIf (observed ≠ plan.device.tableFingerprint || current.tableFingerprint ≠ observed)
      (refused "partition table changed")
    return some table
  else pure none

/-- What follows once the approval has been reserved. -/
def writeApproved (rounds : Nat) (permit : Approval) : Writer Nat := do
  let cancelled ← perform .cancelled
  stopIf cancelled (refused "cancelled")
  orStop .revalidateSource (refused "image source changed")
  orStop .lockExclusive (refused "exclusive access")
  let current ← orStop .observe (refused "device observation")
  checked (plan.revalidate current image) (refused "device changed")
  let table ← expectTable hashing plan current
  let cancelled ← perform .cancelled
  stopIf cancelled (refused "cancelled")
  let budget ← perform .now
  let progress ← writeRanges hashing image plan rounds permit budget plan.writes ⟨0, table⟩
  orStop .revalidateSource (failure progress.written "image source changed")
  let _ ← checkDevice hashing plan progress
  return progress.written

/-- The approval is taken out of the book, whatever becomes of the rest. -/
def writeImage (rounds : Nat) (book : ConfirmationBook) (ticket : Fingerprint) :
    Writer Nat := do
  let now ← perform .now
  match (book.reserve hashing ticket plan now).1 with
  | .error _ => .fail (refused "confirmation")
  | .ok permit => writeApproved hashing image plan rounds permit

end Writing

end AiSwitcher.Device
