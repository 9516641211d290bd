/-
This file embeds `apps/host/crates/core/src/escrow.rs`: the clock that retention is
measured by, the purge of expired items, and the operations on a drive's retained
passphrase.

A record is journalled before the credential store is called, so a call that is cut
off or reports an error leaves a record by which a purge finds the item.
-/

import AiSwitcher.Host.Registry

namespace AiSwitcher.Host

open Interrupted

variable (digest : Digest)

/-! ### The clock -/

def u64Max : Nat := 18446744073709551615

def saturatingAdd (left right : Nat) : Nat := min (left + right) u64Max

/-- The clocks as they were when the process started. -/
structure RetentionClock where
  wallStart : Nat
  monoStart : Nat
  deriving DecidableEq

/-- The time by the monotonic clock alone. -/
def RetentionClock.elapsedTime (clock : RetentionClock) (mono : Nat) : Nat :=
  saturatingAdd clock.wallStart (mono - clock.monoStart)

/-- The registry with the time observed, which is its `lastObservedAt`, and whether a clock went
backwards. -/
structure Observation where
  data : RegistryData
  suspicious : Bool

def Observation.now (observation : Observation) : Nat := observation.data.lastObservedAt

/-- What the readings of both clocks make of a registry. -/
def RetentionClock.observed (clock : RetentionClock) (data : RegistryData) (wall mono : Nat) :
    Observation where
  data := { data with
    lastObservedAt := max (max wall (clock.elapsedTime mono)) data.lastObservedAt }
  suspicious := wall < data.lastObservedAt || mono < clock.monoStart

def RetentionClock.observe (clock : RetentionClock) (data : RegistryData) :
    EscrowProgram Observation := do
  let wall ← .perform .wallSeconds
  let mono ← .perform .monotonicSeconds
  pure (clock.observed data wall mono)

/-! ### Records of a registry -/

def required {Value : Type} (found : Option Value) (error : EscrowError) :
    Except EscrowError Value :=
  found.elim (.error error) .ok

def DriveRecord.withState (record : DriveRecord) (state : EscrowState) : DriveRecord :=
  { record with escrowState := state }

def DriveRecord.forgetting (record : DriveRecord) (forget : Bool) : DriveRecord :=
  { record with forgetPending := record.forgetPending || forget }

def RegistryData.insert (data : RegistryData) (id : String) (record : DriveRecord) :
    RegistryData :=
  { data with drives := data.drives.insert id record }

def RegistryData.remove (data : RegistryData) (id : String) : RegistryData :=
  { data with drives := data.drives.erase id }

/-- A policy's deadline has passed. -/
def EscrowPolicy.hasExpired (policy : EscrowPolicy) (now : Nat) : Bool :=
  match policy with
  | .disabled => false
  | .until expiry => expiry ≤ now

/-! ### Purging -/

structure PurgeResult where
  deleted : Nat
  deletionPending : Nat
  nextExpiry : Option Nat
  clockUntrusted : Bool
  deriving DecidableEq

/-- An item that is expired, interrupted or to be forgotten is to be deleted. -/
def markPending (now : Nat) (record : DriveRecord) : DriveRecord :=
  if record.item.isSome && (record.retention.hasExpired now ||
      record.escrowState == .pendingWrite || record.forgetPending) then
    record.withState .deletionPending
  else record

def RegistryData.markExpired (data : RegistryData) (now : Nat) : RegistryData :=
  { data with drives := data.drives.map fun _ record => markPending now record }

/-- The drives with an item to delete. -/
def RegistryData.pending (data : RegistryData) : List (String × Option ItemRef) :=
  (data.drives.toList.filter fun (_, record) => record.escrowState == .deletionPending).map
    fun (_, record) => (record.driveId, record.item)

/-- The record once its item has been deleted. -/
def DriveRecord.deleted (record : DriveRecord) : DriveRecord :=
  { record with item := none, escrowState := .deleted }

/-- The item of a drive has been deleted. -/
def RegistryData.finishDeletion (data : RegistryData) (id : String) (record : DriveRecord) :
    RegistryData :=
  if record.forgetPending then (data.insert id record.deleted).remove id
  else data.insert id record.deleted

/-- Delete the pending items, saving after each deletion. -/
def purgePending : List (String × Option ItemRef) → RegistryData → PurgeResult →
    EscrowProgram (RegistryData × PurgeResult)
  | [], data, result => pure (data, result)
  | (id, item) :: rest, data, result => do
    let item ← .ofExcept (required item .invalidRegistry)
    match ← .perform (.delete item) with
    | .error _ => purgePending rest data { result with deletionPending := result.deletionPending + 1 }
    | .ok () =>
      let record ← .ofExcept (required data.drives[id]? .invalidRegistry)
      let data := data.finishDeletion id record
      save digest data
      purgePending rest data { result with deleted := result.deleted + 1 }

/-- The expiry of an active record. -/
def activeExpiry (record : DriveRecord) : Option Nat :=
  match record.escrowState, record.retention with
  | .active, .until expiry => some expiry
  | _, _ => none

def RegistryData.nextExpiry (data : RegistryData) : Option Nat :=
  (data.drives.toList.filterMap fun (_, record) => activeExpiry record).min?

/-- The purge of the registry that has been loaded. -/
def purgeLoaded (clock : RetentionClock) (data : RegistryData) : EscrowProgram PurgeResult := do
  let observation ← clock.observe data
  let data := observation.data.markExpired observation.now
  save digest data
  let (data, result) ← purgePending digest data.pending data
    { deleted := 0, deletionPending := 0, nextExpiry := none,
      clockUntrusted := observation.suspicious }
  pure { result with nextExpiry := data.nextExpiry }

def purgeExpired (clock : RetentionClock) : EscrowProgram PurgeResult := do
  let data ← load digest
  .ofExcept (data.validate digest)
  purgeLoaded digest clock data

/-! ### Creating -/

/-- Delete an item that may have been stored. Saving is tried and no more. -/
def cleanFailedPut (data : RegistryData) (id : String) (record : DriveRecord) (item : ItemRef) :
    EscrowProgram Unit := do
  let pending := record.withState .deletionPending
  let data := data.insert id pending
  let _ ← (save digest data).outcome
  match ← .perform (.delete item) with
  | .error _ => pure ()
  | .ok () =>
    let _ ← (save digest (data.insert id pending.deleted)).outcome
    pure ()

/-- The item a policy asks for. -/
def itemFor (installation id : String) (generation : Nat) (policy : EscrowPolicy)
    (now : Nat) (secret : Option String) : Except EscrowError (Option ItemRef) :=
  match policy with
  | .disabled => .ok none
  | .until expiry =>
    if expiry ≤ now || secret.isNone then .error .invalidRetention
    else .ok (some (.forDrive digest installation id generation))

/-- Store the secret of a record that has been journalled, and make the record active. -/
def store (clock : RetentionClock) (data : RegistryData) (id : String) (record : DriveRecord)
    (item : ItemRef) (secret : String) : EscrowProgram (RegistryData × DriveRecord) := do
  match ← .perform (.put item secret) with
  | .error error =>
    cleanFailedPut digest data id record item
    .fail error
  | .ok () =>
    -- The store call may have taken us across the deadline.
    let observation ← clock.observe data
    if observation.suspicious || record.retention.hasExpired observation.now then
      cleanFailedPut digest observation.data id record item
      .fail (if observation.suspicious then .clockUntrusted else .expired)
    else
      let active := record.withState .active
      let data := observation.data.insert id active
      match ← (save digest data).outcome with
      | .error error =>
        cleanFailedPut digest data id active item
        .fail error
      | .ok () => pure (data, active)

def create (clock : RetentionClock) (data : RegistryData) (id : String) (generation : Nat)
    (createdHere : Bool) (policy : EscrowPolicy) (sources : List String) (secret : Option String) :
    EscrowProgram (RegistryData × DriveRecord) := do
  .ofExcept (validateHandle id)
  let observation ← clock.observe data
  .ofExcept (ensure (!observation.suspicious) .clockUntrusted)
  let item ← .ofExcept
    (itemFor digest data.installationId id generation policy observation.now secret)
  let record : DriveRecord :=
    { driveId := id, generation, createdAt := observation.now, retention := policy
      lastRefresh := none, createdHere
      escrowState := if item.isSome then .pendingWrite else .disabled
      item, forgetPending := false, inboxIssued := 0, inboxAcknowledged := 0, outboxIssued := 0
      sourceReferences := sources, installedImage := none, imageUpdateStatus := none }
  let data := observation.data.insert id record
  -- Journal the intent before calling a store that may succeed and then return an error.
  .ofExcept (data.validate digest)
  save digest data
  match item with
  | none => pure (data, record)
  | some item =>
    let secret ← .ofExcept (required secret .invalidRetention)
    store digest clock data id record item secret

def createDrive (clock : RetentionClock) (id : String) (policy : EscrowPolicy)
    (sources : List String) (secret : Option String) : EscrowProgram DriveRecord := do
  let data ← load digest
  .ofExcept (data.validate digest)
  .ofExcept (ensure (!data.drives.contains id) .alreadyExists)
  let (_, record) ← create digest clock data id 1 true policy sources secret
  pure record

/-- Importing exchange state never authorises storing or fetching a key. -/
def importDrive (clock : RetentionClock) (id : String) (generation : Nat) (sources : List String) :
    EscrowProgram DriveRecord := do
  let data ← load digest
  .ofExcept (data.validate digest)
  .ofExcept (ensure (!data.drives.contains id) .alreadyExists)
  let (_, record) ← create digest clock data id generation false .disabled sources none
  pure record

/-! ### Retrieving -/

/-- The expiry of a record that allows retrieval on this computer. -/
def retrievableUntil (record : DriveRecord) : Except EscrowError Nat := do
  ensure record.createdHere .notCreator
  match record.retention with
  | .disabled => .error .missing
  | .until expiry => .ok expiry

def retrieve (clock : RetentionClock) (id : String) : EscrowProgram String := do
  let data ← load digest
  .ofExcept (data.validate digest)
  let first ← clock.observe data
  let record ← .ofExcept (required first.data.drives[id]? .missing)
  let expiry ← .ofExcept (retrievableUntil record)
  if expiry ≤ first.now then
    save digest first.data
    let _ ← purgeExpired digest clock
    .fail .expired
  else if first.suspicious then
    save digest first.data
    .fail .clockUntrusted
  else
    .ofExcept (ensure (record.escrowState == .active && !record.forgetPending) .missing)
    let item ← .ofExcept (required record.item .invalidRegistry)
    save digest first.data
    let secret ← .attempt (.retrieve item)
    let second ← clock.observe first.data
    save digest second.data
    if expiry ≤ second.now then
      let _ ← purgeExpired digest clock
      .fail .expired
    else
      .ofExcept (ensure (!second.suspicious) .clockUntrusted)
      pure secret

/-! ### Removing and resetting -/

def remove (clock : RetentionClock) (id : String) (forget : Bool) : EscrowProgram Unit := do
  let data ← load digest
  .ofExcept (data.validate digest)
  let found ← .ofExcept (required data.drives[id]? .missing)
  let record := found.forgetting forget
  if record.item.isNone then
    save digest (if forget then (data.insert id record).remove id else data.insert id record)
  else
    save digest (data.insert id (record.withState .deletionPending))
    let _ ← purgeExpired digest clock
    let after ← load digest
    .ofExcept (ensure (!after.drives[id]?.any fun record => record.escrowState == .deletionPending)
      .deletionPending)

def delete (clock : RetentionClock) (id : String) : EscrowProgram Unit :=
  remove digest clock id false

def forget (clock : RetentionClock) (id : String) : EscrowProgram Unit :=
  remove digest clock id true

/-- `generation.checked_add(1)`. -/
def nextGeneration (generation : Nat) : Except EscrowError Nat :=
  if generation < u64Max then .ok (generation + 1) else .error .invalidRegistry

/-- The deletion of the old generation completes before a new key can become active. -/
def resetDrive (clock : RetentionClock) (id : String) (policy : EscrowPolicy)
    (secret : Option String) : EscrowProgram DriveRecord := do
  let data ← load digest
  .ofExcept (data.validate digest)
  let previous ← .ofExcept (required data.drives[id]? .missing)
  .ofExcept (ensure previous.createdHere .notCreator)
  let generation ← .ofExcept (nextGeneration previous.generation)
  delete digest clock id
  let data ← load digest
  let (data, _) ← create digest clock data id generation true policy previous.sourceReferences secret
  let record ← .ofExcept (required data.drives[id]? .invalidRegistry)
  -- The physical drive and its installed release are unchanged by a reset.
  let record := { record with
    installedImage := previous.installedImage, imageUpdateStatus := previous.imageUpdateStatus }
  save digest (data.insert id record)
  pure record

/-- Metadata of a successful publication. -/
def recordRefresh (clock : RetentionClock) (id : String)
    (inboxIssued inboxAcknowledged outboxIssued : Nat) : EscrowProgram Unit := do
  let data ← load digest
  .ofExcept (data.validate digest)
  let observation ← clock.observe data
  .ofExcept (ensure (!observation.suspicious) .clockUntrusted)
  let record ← .ofExcept (required observation.data.drives[id]? .missing)
  .ofExcept (ensure (record.inboxIssued ≤ inboxIssued &&
    record.inboxAcknowledged ≤ inboxAcknowledged && record.outboxIssued ≤ outboxIssued)
    .invalidRegistry)
  let data := observation.data.insert id { record with
    inboxIssued, inboxAcknowledged, outboxIssued, lastRefresh := some observation.now }
  .ofExcept (data.validate digest)
  save digest data

end AiSwitcher.Host
