/-
This file embeds `apps/host/crates/core/src/registry.rs`: the drive records a computer
keeps, the checks a registry has to pass, and the repository that loads and replaces
the registry file. Loading and saving are programs over the actions of the host, which
this file declares together with those of the credential store and the clocks.

Texts are checked byte by byte in the source; every such check admits ASCII only, so it
is made on characters here.
-/

import AiSwitcher.Library.Interrupted
import Mathlib.Data.Vector.Basic
import Std.Data.TreeMap

namespace AiSwitcher.Host

open Interrupted

/-! ### Identities of a drive -/

def isHexDigit (character : Char) : Bool :=
  character.isDigit || ('a' ≤ character && character ≤ 'f') || ('A' ≤ character && character ≤ 'F')

def isHexText (text : String) : Bool :=
  text.utf8ByteSize == 64 && text.toList.all isHexDigit

/-- Whether `gpt_guid` accepts the text. -/
def isGptGuid (uuid : String) : Bool :=
  uuid.utf8ByteSize == 36 && uuid.toList.zipIdx.all fun (character, index) =>
    if [8, 13, 18, 23].contains index then character == '-'
    else character.isDigit || ('a' ≤ character && character ≤ 'f')

structure DriveIdentity where
  disk : String
  partitions : Vector String 5
  deriving DecidableEq

/-- Six different random UUIDs of version 4. -/
def DriveIdentity.isValid (identity : DriveIdentity) : Bool :=
  let ids := identity.disk :: identity.partitions.toList
  ids.zipIdx.all fun (id, index) =>
    isGptGuid id && id.toList[14]? == some '4' &&
      (id.toList[19]?.any fun character => ['8', '9', 'a', 'b'].contains character) &&
      !(ids.take index).contains id

def validLiveTag (tag : String) : Bool :=
  let start := "live-v".toList
  let version := tag.toList.drop start.length
  start.isPrefixOf tag.toList && !version.isEmpty && (String.ofList version).utf8ByteSize ≤ 70 &&
    version.all fun character => character.isAlphanum || character == '.' || character == '-'

structure InstalledImage where
  identity : DriveIdentity
  releaseOrder : Nat × Nat
  tag : String
  imageDigest : Vector UInt8 32
  hardwareHint : String
  deriving DecidableEq

def InstalledImage.isValid (image : InstalledImage) : Bool :=
  image.identity.isValid && image.releaseOrder.1 != 0 && image.releaseOrder.2 != 0 &&
    validLiveTag image.tag && isHexText image.hardwareHint

/-! ### Records -/

/-- Fixed errors only. -/
inductive EscrowError where
  | unavailable
  | locked
  | missing
  | expired
  | clockUntrusted
  | invalidRetention
  | notCreator
  | invalidRegistry
  | registryUnavailable
  | registryBusy
  | alreadyExists
  | deletionPending
  deriving DecidableEq

inductive EscrowPolicy where
  | disabled
  | until (expiry : Nat)
  deriving DecidableEq

inductive EscrowState where
  | disabled
  | pendingWrite
  | active
  | deletionPending
  | deleted
  deriving DecidableEq

/-- The account of an item in the credential store. -/
structure ItemRef where
  account : String
  deriving DecidableEq

structure DriveRecord where
  driveId : String
  generation : Nat
  createdAt : Nat
  retention : EscrowPolicy
  lastRefresh : Option Nat
  createdHere : Bool
  item : Option ItemRef
  escrowState : EscrowState
  forgetPending : Bool
  inboxIssued : Nat
  inboxAcknowledged : Nat
  outboxIssued : Nat
  sourceReferences : List String
  installedImage : Option InstalledImage
  imageUpdateStatus : Option String
  deriving DecidableEq

structure RegistryData where
  version : Nat
  installationId : String
  lastObservedAt : Nat
  drives : Std.TreeMap String DriveRecord

/-- A registry without drives. -/
def RegistryData.new (installationId : String) : RegistryData where
  version := 1
  installationId := installationId
  lastObservedAt := 0
  drives := ∅

/-! ### Items -/

/-- The digest that accounts are named by. -/
structure Digest where
  sha256 : List UInt8 → List UInt8

def hexDigit (value : Nat) : Char :=
  Char.ofNat (if value < 10 then 48 + value else 87 + value)

def hex (bytes : List UInt8) : String :=
  .ofList (bytes.flatMap fun byte => [hexDigit (byte.toNat / 16), hexDigit (byte.toNat % 16)])

/-- The eight bytes of a number, the highest first. -/
def toBigEndian (value : Nat) : List UInt8 :=
  (List.range 8).reverse.map fun index => UInt8.ofNat (value / 256 ^ index)

def bytesOf (text : String) : List UInt8 :=
  text.toList.flatMap String.utf8EncodeChar

def ItemRef.forDrive (digest : Digest) (installation drive : String) (generation : Nat) : ItemRef :=
  let parts := [bytesOf "ais-host-escrow-v1", bytesOf installation, bytesOf drive,
    toBigEndian generation]
  ⟨hex (digest.sha256 (parts.flatMap fun part => toBigEndian part.length ++ part))⟩

/-! ### Checks -/

def maxSafeSequence : Nat := 9007199254740991

/-- `return Err(error)` where a condition does not hold. -/
def ensure (condition : Bool) (error : EscrowError) : Except EscrowError Unit :=
  if condition then .ok () else .error error

def validateHandle (value : String) : Except EscrowError Unit :=
  ensure (!value.isEmpty && value.utf8ByteSize ≤ 128 && value.toList.all fun character =>
    character.isAlphanum || character == '-' || character == '_') .invalidRegistry

def isImageUpdateStatus (status : String) : Bool :=
  ["created", "updating", "writtenAwaitingBoot"].contains status

/-- What a record's retention policy says of its item. -/
def validateRetention (digest : Digest) (data : RegistryData) (id : String) (record : DriveRecord) :
    Except EscrowError Unit :=
  match record.retention with
  | .disabled => ensure (record.item.isNone && record.escrowState == .disabled) .invalidRegistry
  | .until expiry => do
    ensure (record.createdHere && record.createdAt < expiry && record.escrowState != .disabled)
      .invalidRegistry
    if record.escrowState = .deleted then ensure record.item.isNone .invalidRegistry
    else ensure (record.item ==
      some (.forDrive digest data.installationId id record.generation)) .invalidRegistry

def validateRecord (digest : Digest) (data : RegistryData) (id : String) (record : DriveRecord) :
    Except EscrowError Unit := do
  validateHandle id
  ensure (record.installedImage.all InstalledImage.isValid &&
    record.imageUpdateStatus.all isImageUpdateStatus && id == record.driveId &&
    record.generation != 0 && record.createdAt ≤ data.lastObservedAt &&
    (record.lastRefresh.all fun refreshed =>
      record.createdAt ≤ refreshed && refreshed ≤ data.lastObservedAt) &&
    record.inboxIssued ≤ maxSafeSequence && record.outboxIssued ≤ maxSafeSequence &&
    record.inboxAcknowledged ≤ record.inboxIssued && record.sourceReferences.length ≤ 64)
    .invalidRegistry
  record.sourceReferences.forM validateHandle
  validateRetention digest data id record

def RegistryData.validate (digest : Digest) (data : RegistryData) : Except EscrowError Unit := do
  ensure (data.version == 1 && isHexText data.installationId && data.drives.size ≤ 1024)
    .invalidRegistry
  data.drives.toList.forM fun (id, record) => validateRecord digest data id record

/-! ### Actions of the host -/

/-- What the host does outside its memory. `drives.json` is read and replaced as a whole. -/
inductive EscrowAction : Type → Type where
  | readRegistry : EscrowAction (Except EscrowError (Option RegistryData))
  | replaceRegistry (data : RegistryData) : EscrowAction (Except EscrowError Unit)
  | randomId : EscrowAction (Except EscrowError String)
  | put (item : ItemRef) (secret : String) : EscrowAction (Except EscrowError Unit)
  | retrieve (item : ItemRef) : EscrowAction (Except EscrowError String)
  | delete (item : ItemRef) : EscrowAction (Except EscrowError Unit)
  | wallSeconds : EscrowAction Nat
  | monotonicSeconds : EscrowAction Nat

abbrev EscrowProgram := Program EscrowAction EscrowError

/-! ### The repository -/

def save (digest : Digest) (data : RegistryData) : EscrowProgram Unit := do
  .ofExcept (data.validate digest)
  .attempt (.replaceRegistry data)

/-- A missing file is created. -/
def load (digest : Digest) : EscrowProgram RegistryData := do
  match ← .attempt .readRegistry with
  | none =>
    let installationId ← .attempt .randomId
    let data := RegistryData.new installationId
    save digest data
    pure data
  | some data =>
    .ofExcept (data.validate digest)
    pure data

end AiSwitcher.Host
