/-
This file embeds how a write to a drive is approved (`apps/host/crates/core/src/device.rs`): what
is observed of a device, the plan of a write and its check against a later observation, and the
book of confirmations, in which an approval is for one plan, for a while and for one use.
SHA-256 and the JSON text of a plan are parameters.
-/

import AiSwitcher.Host.BootMenu
import AiSwitcher.Host.DeviceRanges
import AiSwitcher.Host.Helper
import AiSwitcher.Library.Control

namespace AiSwitcher.Device

open BootMenu (isSpaceChar)
open HelperProtocol (AssetIdentity)
open JavaScript (check_bind_eq_ok forM_eq_ok)
open Host (ByteRange DriveIdentity)

abbrev Bytes := List UInt8

/-- What SHA-256 gives, and as many bytes of entropy. -/
abbrev Fingerprint := Vector UInt8 32

inductive DeviceError where
  | ineligible
  | changed
  | bounds
  | confirmation
  | stale
  | entropy
  | tableFingerprint
  | layoutUnavailable
  | insufficientCapacity
  deriving DecidableEq

def refuseUnless (condition : Bool) (error : DeviceError) : Except DeviceError Unit :=
  if condition then .ok () else .error error

@[simp] theorem refuseUnless_eq_ok (condition : Bool) (error : DeviceError) (result : Unit) :
    refuseUnless condition error = .ok result ↔ condition = true := by
  cases condition <;> simp [refuseUnless]

/-! ### Observations -/

structure DeviceObservation where
  osIdentity : String
  connectionIdentity : String
  displayIdentifier : String
  serial : Option String
  model : Option String
  capacityBytes : UInt64
  sectorBytes : UInt32
  tableFingerprint : Fingerprint
  ancestryFingerprint : Fingerprint
  mountFingerprint : Fingerprint
  externalUsb : Bool
  internal : Bool
  systemBacking : Bool
  ancestryComplete : Bool
  writable : Bool
  deriving DecidableEq

/-- `char::is_control` -/
def isControlChar (character : Char) : Bool :=
  let code := character.toNat
  code < 0x20 || (0x7F ≤ code && code < 0xA0)

namespace DeviceObservation

def isEligible (observation : DeviceObservation) : Bool :=
  !observation.osIdentity.isEmpty && !observation.connectionIdentity.isEmpty &&
    !observation.displayIdentifier.toList.all isSpaceChar &&
    !observation.displayIdentifier.toList.any isControlChar &&
    observation.externalUsb && !observation.internal && !observation.systemBacking &&
    observation.ancestryComplete && observation.writable

def hasSectors (observation : DeviceObservation) : Bool :=
  (observation.sectorBytes = 512 || observation.sectorBytes = 4096) &&
    observation.capacityBytes ≠ 0 &&
    observation.capacityBytes.toNat % observation.sectorBytes.toNat = 0

def validate (observation : DeviceObservation) : Except DeviceError Unit := do
  refuseUnless observation.isEligible .ineligible
  refuseUnless observation.hasSectors .bounds

/-- The fields that stay as they are while the table of the device is rewritten. -/
def samePhysicalIdentity (self other : DeviceObservation) : Bool :=
  self.osIdentity = other.osIdentity && self.connectionIdentity = other.connectionIdentity &&
    self.serial = other.serial && self.model = other.model &&
    self.capacityBytes = other.capacityBytes && self.sectorBytes = other.sectorBytes &&
    self.ancestryFingerprint = other.ancestryFingerprint

end DeviceObservation

def validateRange (range : ByteRange) (device : DeviceObservation) : Except DeviceError Unit :=
  let sector := device.sectorBytes.toNat
  refuseUnless (sector ≠ 0 && range.length ≠ 0 && range.start.toNat % sector = 0 &&
    range.length.toNat % sector = 0 && range.stop < 2 ^ 64 &&
    range.stop ≤ device.capacityBytes.toNat) .bounds

/-! ### Plans -/

inductive WriteOperation where
  | createLayout
  | replaceBase
  | resetPersist
  deriving DecidableEq

inductive WriteSource where
  | image (offset : UInt64)
  | bytes (bytes : Bytes)
  | zeroes
  deriving DecidableEq

structure PlannedWrite where
  range : ByteRange
  source : WriteSource
  deriving DecidableEq

/-- The release that an operation keeps to. -/
structure ReleaseSelection where
  releaseId : UInt64
  publishedAt : UInt64
  tag : String
  image : AssetIdentity
  sums : AssetIdentity
  signature : AssetIdentity
  deriving DecidableEq

structure WritePlan where
  operation : WriteOperation
  device : DeviceObservation
  sourceDigest : Fingerprint
  compressedDigest : Fingerprint
  release : ReleaseSelection
  ranges : List ByteRange
  writes : List PlannedWrite
  remainingBytes : UInt64
  phaseAware : Bool
  exchange : Option ByteRange
  identity : Option DriveIdentity
  deriving DecidableEq

/-- An image that has been read and verified. The file that it was read from has the digest
`compressedDigest`. -/
structure VerifiedImage where
  bytes : Bytes
  digest : Fingerprint
  compressedDigest : Fingerprint
  selection : ReleaseSelection

/-- What the platform computes: SHA-256, and the JSON text of a plan. -/
structure Hashing where
  sha256 : Bytes → Fingerprint
  toVec : WritePlan → Bytes

def TABLE_WINDOW_BYTES : Nat := 34 * 512

def Hashing.tableFingerprint (hashing : Hashing) (head tail : Bytes) :
    Except DeviceError Fingerprint :=
  if head.length ≠ TABLE_WINDOW_BYTES ∨ tail.length ≠ TABLE_WINDOW_BYTES then
    .error .tableFingerprint
  else .ok (hashing.sha256 (head ++ tail))

def Hashing.digest (hashing : Hashing) (plan : WritePlan) : Fingerprint :=
  hashing.sha256 (hashing.toVec plan)

/-- The source of a write has as many bytes as its range. -/
def PlannedWrite.hasSource (image : VerifiedImage) (write : PlannedWrite) : Bool :=
  match write.source with
  | .image offset =>
      let stop := offset.toNat + write.range.length.toNat
      stop < 2 ^ 64 && stop ≤ image.bytes.length
  | .bytes bytes => bytes.length = write.range.length.toNat
  | .zeroes => true

def WritePlan.revalidate (plan : WritePlan) (current : DeviceObservation)
    (image : VerifiedImage) : Except DeviceError Unit := do
  current.validate
  refuseUnless (current = plan.device) .changed
  refuseUnless (image.digest = plan.sourceDigest &&
    image.compressedDigest = plan.compressedDigest && image.selection = plan.release &&
    !plan.writes.isEmpty) .changed
  plan.ranges.forM fun range => validateRange range current
  plan.writes.forM fun write => refuseUnless (write.hasSource image) .changed

theorem revalidate_eq_ok {plan : WritePlan} {current : DeviceObservation} {image : VerifiedImage} :
    plan.revalidate current image = .ok () ↔ current.validate = .ok () ∧ current = plan.device ∧
      (image.digest = plan.sourceDigest ∧ image.compressedDigest = plan.compressedDigest ∧
        image.selection = plan.release ∧ plan.writes ≠ []) ∧
      (∀ range ∈ plan.ranges, validateRange range current = .ok ()) ∧
      ∀ write ∈ plan.writes, write.hasSource image = true := by
  simp only [WritePlan.revalidate, check_bind_eq_ok, forM_eq_ok, refuseUnless_eq_ok,
    decide_eq_true_eq, Bool.and_eq_true, Bool.not_eq_true', List.isEmpty_eq_false_iff, and_assoc]

/-! ### Confirmations -/

/-- What a ticket approves. Times are in nanoseconds. -/
structure Approval where
  plan : Fingerprint
  identifier : String
  expires : Nat
  deriving DecidableEq

structure ConfirmationBook where
  approvals : Fingerprint → Option Approval

namespace ConfirmationBook

def empty : ConfirmationBook := ⟨fun _ => none⟩

def invalidate (_book : ConfirmationBook) : ConfirmationBook := empty

def insert (book : ConfirmationBook) (nonce : Fingerprint) (approval : Approval) :
    ConfirmationBook :=
  ⟨fun other => if other = nonce then some approval else book.approvals other⟩

def remove (book : ConfirmationBook) (nonce : Fingerprint) : ConfirmationBook :=
  ⟨fun other => if other = nonce then none else book.approvals other⟩

def MAX_TTL : Nat := 120 * 10 ^ 9

/-- `entropy` is what the random source gives. -/
def issue (hashing : Hashing) (book : ConfirmationBook) (plan : WritePlan) (typed : String)
    (now ttl : Nat) (entropy : Option Fingerprint) :
    Except DeviceError Fingerprint × ConfirmationBook :=
  -- A new attempt invalidates the approvals before it, also a wrong one.
  let book := book.invalidate
  if typed ≠ plan.device.displayIdentifier ∨ typed = "" then (.error .confirmation, book)
  else if ttl = 0 ∨ MAX_TTL < ttl then (.error .stale, book)
  else
    match entropy with
    | none => (.error .entropy, book)
    | some nonce => (.ok nonce, book.insert nonce ⟨hashing.digest plan, typed, now + ttl⟩)

/-- The approval is removed before it is checked: a refused attempt has used it up as well. -/
def reserve (hashing : Hashing) (book : ConfirmationBook) (ticket : Fingerprint)
    (plan : WritePlan) (now : Nat) : Except DeviceError Approval × ConfirmationBook :=
  match book.approvals ticket with
  | none => (.error .stale, book)
  | some approval =>
      if approval.expires ≤ now ∨ approval.plan ≠ hashing.digest plan then
        (.error .stale, book.remove ticket)
      else (.ok approval, book.remove ticket)

end ConfirmationBook

/-- An approval that has been reserved is checked again just before the first byte is written. -/
def Approval.validateBeforeMutation (hashing : Hashing) (permit : Approval) (plan : WritePlan)
    (current : DeviceObservation) (image : VerifiedImage) (now : Nat) : Except DeviceError Unit :=
  if permit.expires ≤ now ∨ permit.plan ≠ hashing.digest plan ∨
      permit.identifier ≠ current.displayIdentifier then .error .stale
  else plan.revalidate current image

def ConfirmationBook.consume (hashing : Hashing) (book : ConfirmationBook) (ticket : Fingerprint)
    (plan : WritePlan) (current : DeviceObservation) (image : VerifiedImage) (now : Nat) :
    Except DeviceError Unit × ConfirmationBook :=
  match book.reserve hashing ticket plan now with
  | (.error error, book) => (.error error, book)
  | (.ok permit, book) => (permit.validateBeforeMutation hashing plan current image now, book)

end AiSwitcher.Device
