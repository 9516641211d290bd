/-
This file embeds the refresh of a drive by a computer: the flow state of
`apps/host/crates/core/src/flow_state.rs`, the functions of `refresh.rs` that reconcile it
with an exchange, prepare a refresh and publish it, and the other publisher of inbox
bundles, `publish_image_updated` of `publish.rs`, which takes its sequence numbers from the
drive registry.

The flow state and the registry are saved as a whole, and a bundle is published as a whole;
each of these is one action, before or after which an operation may end.
-/

import AiSwitcher.Exchange.Conflicts
import AiSwitcher.Library.Interrupted
import Mathlib.Data.List.Sort

namespace AiSwitcher.Exchange

open JavaScript Interrupted
open Host (maxSafeSequence)

/-! ### The flow state -/

structure DriveBinding where
  driveId : String
  generation : Nat
  deriving DecidableEq

def DriveBinding.validate (binding : DriveBinding) : Except String Unit := do
  ensure (Host.validateHandle binding.driveId == .ok ()) "invalid drive handle"
  ensure (binding.generation != 0 && binding.generation ≤ maxSafeSequence)
    "invalid drive generation"

structure PendingRefresh where
  sequence : Nat
  sourceDigest : String
  selectionDigest : String
  proposedHashes : Members String
  deriving DecidableEq

structure OutboxSeen where
  sequence : Nat
  digest : String
  deriving DecidableEq

structure FlowState where
  version : Nat
  binding : DriveBinding
  inboxIssued : Nat
  inboxAcknowledged : Nat
  outboxIssued : Nat
  pending : Option PendingRefresh
  commonHashes : Members String
  lastOutbox : Option OutboxSeen
  logReceipts : List String
  deriving DecidableEq

def FlowState.new (binding : DriveBinding) : FlowState where
  version := 1
  binding := binding
  inboxIssued := 0
  inboxAcknowledged := 0
  outboxIssued := 0
  pending := none
  commonHashes := []
  lastOutbox := none
  logReceipts := []

def FlowState.fromRecord (record : Host.DriveRecord) : Except String FlowState := do
  let binding : DriveBinding := ⟨record.driveId, record.generation⟩
  binding.validate
  return { FlowState.new binding with
    inboxIssued := record.inboxIssued
    inboxAcknowledged := record.inboxAcknowledged
    outboxIssued := record.outboxIssued }

def validateHashes (hashes : Members String) : Except String Unit :=
  ensure (hashes.length ≤ maxBundleEntries && hashes.all fun (path, hash) =>
    Host.isHexText hash && (classifyPath path).any PathClass.isConfig)
    "invalid common configuration hashes"

def FlowState.validate (binding : DriveBinding) (state : FlowState) : Except String Unit := do
  state.binding.validate
  ensure (state.version == 1 && state.binding == binding &&
    state.inboxIssued ≤ maxSafeSequence && state.outboxIssued ≤ maxSafeSequence &&
    state.inboxAcknowledged ≤ state.inboxIssued) "flow state does not match this drive generation"
  validateHashes state.commonHashes
  ensure (state.pending.all fun pending =>
    pending.sequence != 0 && pending.sequence ≤ state.inboxIssued &&
      Host.isHexText pending.sourceDigest && Host.isHexText pending.selectionDigest)
    "invalid pending refresh state"
  validateHashes ((state.pending.map PendingRefresh.proposedHashes).getD [])
  ensure ((state.lastOutbox.all fun seen => seen.sequence != 0 &&
    seen.sequence ≤ state.outboxIssued && Host.isHexText seen.digest) &&
    state.logReceipts.length ≤ 1024 && state.logReceipts.all Host.isHexText)
    "invalid outbox receipt state"

/-! ### The exchange -/

/-- A decrypted bundle, with the digest of its archive. -/
structure AuthenticatedBundle (Content : Type) where
  manifest : BundleManifest
  files : Members Content
  digest : String

structure ExchangeSnapshot (Content : Type) where
  binding : DriveBinding
  inbox : Option (AuthenticatedBundle Content)
  outbox : Option (AuthenticatedBundle Content)
  fingerprint : String

variable {Content : Type}

/-- The hashes of the inbox that the outbox has too, once the drive has acknowledged it. -/
def commonWithInbox (inbox outbox : BundleManifest) : Members String :=
  (inbox.entries.filter fun entry => entry.pathClass.isConfig && outbox.entries.any fun drive =>
    drive.path == entry.path && drive.pathClass == entry.pathClass &&
      drive.sha256 == entry.sha256).map fun entry => (entry.path, entry.sha256)

/-- The proposed hashes that the outbox has. An acknowledgement alone promotes no path. -/
def commonWithPending (pending : PendingRefresh) (outbox : BundleManifest) : Members String :=
  (outbox.entries.filter fun entry => entry.pathClass.isConfig &&
    pending.proposedHashes.get entry.path == some entry.sha256).map fun entry =>
      (entry.path, entry.sha256)

def setAll (hashes : Members String) (news : Members String) : Members String :=
  news.foldl (fun hashes entry => hashes.set entry.1 entry.2) hashes

/-- An outbox that has not been seen acknowledges a sequence. -/
def acknowledge (state : FlowState) (inbox : Option BundleManifest) (outbox : BundleManifest)
    (digest : String) (acknowledged : Nat) : FlowState :=
  let promoted := match inbox with
    | some inbox => if inbox.seq = acknowledged then commonWithInbox inbox outbox else []
    | none => []
  let cleared := state.pending.filter fun pending => pending.sequence ≤ acknowledged
  { state with
    inboxIssued := max state.inboxIssued acknowledged
    inboxAcknowledged := acknowledged
    outboxIssued := max state.outboxIssued outbox.seq
    commonHashes := setAll (setAll state.commonHashes promoted)
      ((cleared.map fun pending => commonWithPending pending outbox).getD [])
    pending := if cleared.isSome then none else state.pending
    lastOutbox := some ⟨outbox.seq, digest⟩ }

def reconcile (state : FlowState) (snapshot : ExchangeSnapshot Content) :
    Except String FlowState := do
  state.validate snapshot.binding
  let inbox := snapshot.inbox.map AuthenticatedBundle.manifest
  let issued := { state with
    inboxIssued := max state.inboxIssued ((inbox.map BundleManifest.seq).getD 0) }
  match snapshot.outbox with
  | none => return issued
  | some outbox =>
    if outbox.manifest.seq < issued.outboxIssued then return issued
    else
      match issued.lastOutbox.filter fun seen => outbox.manifest.seq = seen.sequence with
      | some seen =>
        ensure (outbox.digest == seen.digest) "outbox changed without a new sequence"
        return issued
      | none =>
        match outbox.manifest.lastInboxSeq with
        | none => .error "outbox acknowledgement is missing"
        | some acknowledged =>
          if acknowledged < issued.inboxAcknowledged then return issued
          else return acknowledge issued inbox outbox.manifest outbox.digest acknowledged

/-! ### Actions -/

/-- A snapshot of a source: a bundle of the kind inbox. -/
structure SourceSnapshot (Content : Type) where
  manifest : BundleManifest
  files : Members Content

/-- What these operations do outside their memory. The save of a reservation is told from that
of a reconciled state, and a snapshot under the lock of the exchange from one without. -/
inductive FlowAct (Content : Type) : Type → Type where
  | snapshot : FlowAct Content (Except String (ExchangeSnapshot Content))
  | lockExchange : FlowAct Content (Except String Unit)
  | lockedSnapshot : FlowAct Content (Except String (ExchangeSnapshot Content))
  | readFlow : FlowAct Content (Except String (Option FlowState))
  | replaceFlow (state : FlowState) : FlowAct Content (Except String Unit)
  | reserveFlow (state : FlowState) (pending : PendingRefresh) : FlowAct Content (Except String Unit)
  | exportSnapshot (target : String) : FlowAct Content (Except String (SourceSnapshot Content))
  | publish (manifest : BundleManifest) (files : Members Content) :
      FlowAct Content (Except String Unit)
  | loadRegistry : FlowAct Content (Except String Host.RegistryData)
  | reserveRegistry (data : Host.RegistryData) (sequence : Nat) :
      FlowAct Content (Except String Unit)
  | latestInbox : FlowAct Content (Except String (Option (Nat × BundleManifest)))
  | publishMarker (manifest : BundleManifest) (files : Members Content) :
      FlowAct Content (Except String Unit)

abbrev Flow (Content Result : Type) := Program (FlowAct Content) String Result

/-- A store without a file starts from the drive record. -/
def storedFlow (binding : DriveBinding) : Option FlowState → Flow Content FlowState
  | some state => return state
  | none => do
      let registry ← .attempt .loadRegistry
      match registry.drives[binding.driveId]? with
      | none => .fail "drive record is missing; import authenticated drive state first"
      | some record => .ofExcept (FlowState.fromRecord record)

def loadFlow (binding : DriveBinding) : Flow Content FlowState := do
  .ofExcept binding.validate
  let stored ← .attempt .readFlow
  let state ← storedFlow binding stored
  .ofExcept (state.validate binding)
  return state

/-! ### Preparing a refresh -/

/-- What refreshes take from their libraries beside the checks of bundles: the digests of a
serialised state and of serialised entries, and the marker of an image update. -/
structure FlowRuntime (Content : Type) extends BundleRuntime Content where
  stateDigest : FlowState → String
  entriesDigest : List BundleEntry → String
  imageMarker : Host.InstalledImage → Content

structure FreshnessPolicy where
  nowSeconds : ℤ
  maximumAgeSeconds : Nat
  captureClockTrusted : Bool

section Refreshing

variable (runtime : FlowRuntime Content)

def FreshnessPolicy.isCurrent (policy : FreshnessPolicy) (manifest : BundleManifest) : Bool :=
  policy.captureClockTrusted && (runtime.timestamp manifest.createdAt).any fun captured =>
    let age := policy.nowSeconds - captured
    0 ≤ age && age < 2 ^ 63 && age ≤ policy.maximumAgeSeconds

inductive RefreshDisposition where
  | ready
  | reusePending
  | awaitingAcknowledgement
  | noSafeEntries
  deriving DecidableEq

structure RefreshChoices where
  configuration : Members ConflictChoice
  replacePending : Bool

structure PreparedRefresh where
  acknowledgedSeq : Nat
  pendingSeq : Option Nat
  outboxCreatedAt : Option String
  conflicts : List Conflict
  sourceDigest : String
  disposition : RefreshDisposition
  replacesPending : Bool
  deferredPaths : List String
  outboxCurrent : Bool
  source : String
  binding : DriveBinding
  exchangeFingerprint : String
  stateDigest : String
  included : List String
  selectionDigest : String

def sortedDigest (entries : List BundleEntry) : String :=
  runtime.entriesDigest (entries.insertionSort fun first second => first.path ≤ second.path)

/-- The outbox says how the drive is now: it is the newest, has acknowledged what has been
acknowledged, and is fresh. -/
def outboxIsCurrent (policy : FreshnessPolicy) (state : FlowState) (outbox : BundleManifest) : Bool :=
  state.outboxIssued ≤ outbox.seq &&
    outbox.lastInboxSeq.any (state.inboxAcknowledged ≤ ·) && policy.isCurrent runtime outbox

/-- The paths that go into the inbox. -/
def includedPaths (entries : List BundleEntry) (analysis : ConfigAnalysis) : List String :=
  (entries.filter fun entry =>
    !entry.pathClass.isConfig || analysis.included.contains entry.path).map BundleEntry.path

/-- The analysis of a source against the outbox of an exchange. -/
def analyseSnapshot (policy : FreshnessPolicy) (state : FlowState)
    (snapshot : ExchangeSnapshot Content) (source : BundleManifest) : ConfigAnalysis :=
  analyse source.entries ((snapshot.outbox.map fun outbox => outbox.manifest.entries).getD [])
    state.commonHashes
    (snapshot.outbox.any fun outbox => outboxIsCurrent runtime policy state outbox.manifest)

def prepareWith (binding : DriveBinding) (target : String) (policy : FreshnessPolicy)
    (choices : RefreshChoices) (state : FlowState) (snapshot : ExchangeSnapshot Content)
    (source : BundleManifest) (analysis : ConfigAnalysis) : PreparedRefresh :=
  let included := includedPaths source.entries analysis
  let sourceDigest := sortedDigest runtime source.entries
  let selectionDigest :=
    sortedDigest runtime (source.entries.filter fun entry => included.contains entry.path)
  let pendingSeq := (snapshot.inbox.map fun inbox => inbox.manifest.seq).filter fun seq =>
    state.inboxAcknowledged < seq
  let identicalPending := state.pending.any fun pending =>
    pendingSeq == some pending.sequence && pending.sourceDigest == sourceDigest &&
      pending.selectionDigest == selectionDigest
  { acknowledgedSeq := state.inboxAcknowledged
    pendingSeq := pendingSeq
    outboxCreatedAt := snapshot.outbox.map fun outbox => outbox.manifest.createdAt
    conflicts := analysis.conflicts
    sourceDigest := sourceDigest
    disposition :=
      if identicalPending then .reusePending
      else if pendingSeq.isSome && !choices.replacePending then .awaitingAcknowledgement
      else if included.isEmpty then .noSafeEntries
      else .ready
    replacesPending := pendingSeq.isSome && choices.replacePending && !identicalPending
    deferredPaths := (analysis.conflicts.filter fun conflict =>
      conflict.choice != .keepDrive).map Conflict.path
    outboxCurrent :=
      snapshot.outbox.any fun outbox => outboxIsCurrent runtime policy state outbox.manifest
    source := target
    binding := binding
    exchangeFingerprint := snapshot.fingerprint
    stateDigest := runtime.stateDigest state
    included := included
    selectionDigest := selectionDigest }

def prepareRefresh (binding : DriveBinding) (target : String) (policy : FreshnessPolicy)
    (choices : RefreshChoices) : Flow Content PreparedRefresh := do
  let snapshot ← .attempt .snapshot
  let loaded ← loadFlow binding
  .ofExcept (loaded.validate binding)
  let state ← .ofExcept (reconcile loaded snapshot)
  .ofExcept (state.validate state.binding)
  .attempt (.replaceFlow state)
  let source ← .attempt (.exportSnapshot target)
  let analysis ← .ofExcept (applyChoices (analyseSnapshot runtime policy state snapshot source.manifest)
    choices.configuration)
  return prepareWith runtime binding target policy choices state snapshot source.manifest analysis

/-! ### Publishing a refresh -/

structure RefreshResult where
  sequence : Option Nat
  acknowledged : Bool
  reusedPending : Bool
  deferredPaths : List String
  deriving DecidableEq

/-- The sequence number after all that are known. -/
def nextSequence (highest : Nat) : Except String Nat :=
  if highest + 1 ≤ maxSafeSequence then .ok (highest + 1)
  else .error "inbox sequence space is exhausted"

def refreshManifest (sequence : Nat) (createdAt : String) (entries : List BundleEntry) :
    BundleManifest where
  version := 1
  seq := sequence
  createdAt := createdAt
  kind := .inbox
  entries := entries
  lastInboxSeq := none
  truncated := none
  skippedSymlinks := none

/-- The reservation of a sequence for some entries, and their publication. -/
def publishEntries (prepared : PreparedRefresh) (state : FlowState) (sourceDigest createdAt : String)
    (sequence : Nat) (entries : List BundleEntry) (files : Members Content) :
    Flow Content RefreshResult := do
  let manifest := refreshManifest sequence createdAt entries
  .ofExcept (validateManifest runtime.toBundleRuntime manifest files)
  let pending : PendingRefresh :=
    { sequence := sequence
      sourceDigest := sourceDigest
      selectionDigest := prepared.selectionDigest
      proposedHashes := (entries.filter fun entry => entry.pathClass.isConfig).map fun entry =>
        (entry.path, entry.sha256) }
  let reserved := { state with inboxIssued := sequence, pending := some pending }
  .ofExcept (reserved.validate reserved.binding)
  .attempt (.reserveFlow reserved pending)
  .attempt (.publish manifest files)
  return ⟨some sequence, false, false, prepared.deferredPaths⟩

def publishRefresh (prepared : PreparedRefresh) (binding : DriveBinding) (createdAt : String) :
    Flow Content RefreshResult := do
  .ofExcept (ensure (prepared.binding == binding) "refresh belongs to another drive generation")
  .attempt .lockExchange
  let state ← loadFlow binding
  .ofExcept (state.validate binding)
  .ofExcept (ensure (runtime.stateDigest state == prepared.stateDigest)
    "drive state changed; review a new preview")
  let source ← .attempt (.exportSnapshot prepared.source)
  .ofExcept (ensure (sortedDigest runtime source.manifest.entries == prepared.sourceDigest)
    "source changed; review a new preview")
  let snapshot ← .attempt .lockedSnapshot
  .ofExcept (ensure (snapshot.fingerprint == prepared.exchangeFingerprint)
    "exchange changed; review a new preview")
  match prepared.disposition with
  | .awaitingAcknowledgement =>
    .fail "a different refresh is pending; wait for acknowledgement or review its replacement"
  | .reusePending => return ⟨prepared.pendingSeq, false, true, prepared.deferredPaths⟩
  | .noSafeEntries => return ⟨none, false, false, prepared.deferredPaths⟩
  | .ready =>
    let latest := (snapshot.inbox.map fun inbox => inbox.manifest.seq).getD 0
    let sequence ← .ofExcept
      (nextSequence (max (max state.inboxIssued state.inboxAcknowledged) latest))
    publishEntries runtime prepared state (sortedDigest runtime source.manifest.entries) createdAt
      sequence (source.manifest.entries.filter fun entry => prepared.included.contains entry.path)
      (source.files.filter fun file => prepared.included.contains file.1)

/-! ### Announcing an image update -/

def reserveUpdateInbox (data : Host.RegistryData) (id : String) (minimum : Nat) :
    Except Host.EscrowError (Nat × Host.RegistryData) :=
  match data.drives[id]? with
  | none => .error .invalidRegistry
  | some record =>
    let seq := max (max record.inboxIssued record.inboxAcknowledged) minimum + 1
    if record.forgetPending ∨ maxSafeSequence < minimum ∨ maxSafeSequence < seq then
      .error .invalidRegistry
    else
      .ok (seq, { data with drives := data.drives.insert id { record with inboxIssued := seq } })

/-- `reserve_update_sequence`: the registry is loaded, and saved with the reservation. -/
def reserveUpdateSequence (id : String) (minimum : Nat) : Flow Content Nat := do
  let data ← .attempt .loadRegistry
  match reserveUpdateInbox data id minimum with
  | .error _ => .fail "The local drive record is invalid."
  | .ok (seq, reserved) =>
    .attempt (.reserveRegistry reserved seq)
    return seq

def markerPath : String := ".ais/logs/image-updated.jsonl"

def publishImageUpdated (driveId : String) (image : Host.InstalledImage) (createdAt : String) :
    Flow Content Nat := do
  .ofExcept (ensure image.isValid "The updated image record is invalid.")
  .attempt .lockExchange
  match ← .attempt .latestInbox with
  | none => .fail "The existing encrypted inbox is unavailable."
  | some (previous, manifest) =>
    .ofExcept (ensure (manifest.seq == previous) "The inbox sequence does not match its filename.")
    let seq ← reserveUpdateSequence driveId previous
    .ofExcept (ensure (previous < seq && seq ≤ maxSafeSequence) "Invalid reserved inbox sequence.")
    let marker := runtime.imageMarker image
    let updated := { manifest with
      seq := seq
      createdAt := createdAt
      entries := [⟨markerPath, .logs, runtime.sha256Hex marker, runtime.size marker⟩] }
    .ofExcept (validateManifest runtime.toBundleRuntime updated [(markerPath, marker)])
    .attempt (.publishMarker updated [(markerPath, marker)])
    return seq

end Refreshing

end AiSwitcher.Exchange
