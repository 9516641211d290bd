/-
This file says what the operations of a refresh do to a computer and an exchange: what their
actions may answer, with every save and publication failing or not, and from that which
worlds each operation can reach, wherever it ends.

A world keeps the history of its reservations, publications and outboxes. The history is
read by nobody; the results about runs are about it.
-/

import AiSwitcher.Exchange.Refresh

namespace AiSwitcher.Exchange

open JavaScript Interrupted Program

variable {Content : Type}

/-! ### Worlds -/

/-- A sequence number that was durably reserved. -/
inductive Reservation where
  | refresh (pending : PendingRefresh)
  | imageUpdated (sequence : Nat)
  deriving DecidableEq

def Reservation.sequence : Reservation → Nat
  | .refresh pending => pending.sequence
  | .imageUpdated sequence => sequence

/-- An inbox bundle; the one that was written when the drive was created has no reservation. -/
structure Publication (Content : Type) where
  reservation : Option Reservation
  manifest : BundleManifest
  files : Members Content

structure World (Content : Type) where
  flow : Option FlowState
  registry : Host.RegistryData
  inbox : List (Publication Content)
  reserved : List Reservation
  published : List (Publication Content)
  exported : List (AuthenticatedBundle Content)

namespace World

def replaceFlow (world : World Content) (state : FlowState) : World Content :=
  { world with flow := some state }

def reserveFlow (world : World Content) (state : FlowState) (pending : PendingRefresh) :
    World Content :=
  { world with
    flow := some state
    reserved := world.reserved ++ [.refresh pending] }

def reserveRegistry (world : World Content) (data : Host.RegistryData) (sequence : Nat) :
    World Content :=
  { world with
    registry := data
    reserved := world.reserved ++ [.imageUpdated sequence] }

/-- A bundle is published and some of the other files are left. -/
def publish (world : World Content) (publication : Publication Content)
    (kept : List (Publication Content)) : World Content :=
  { world with
    inbox := publication :: kept
    published := publication :: world.published }

end World

/-- A snapshot of bundles that were published and exported. -/
structure Authentic (binding : DriveBinding) (world : World Content)
    (snapshot : ExchangeSnapshot Content) : Prop where
  binding : snapshot.binding = binding
  inbox : ∀ bundle, snapshot.inbox = some bundle →
    ∃ publication ∈ world.published, publication.manifest = bundle.manifest
  outbox : ∀ bundle, snapshot.outbox = some bundle → bundle ∈ world.exported

/-- The publication of a bundle: a file of that name must not be there, and the older ones
may be removed. -/
def Publishes (before : World Content) (publication : Publication Content)
    (answer : Except String Unit) (after : World Content) : Prop :=
  (after = before ∧ answer ≠ .ok ()) ∨
    ∃ kept, kept ⊆ before.inbox ∧
      (∀ file ∈ before.inbox, file.manifest.seq ≠ publication.manifest.seq) ∧
      after = before.publish publication kept

/-- Every access may fail. Any authentic snapshot may be read, the current inbox if the exchange is
locked. -/
def answers (binding : DriveBinding) : Behaviour (FlowAct Content) (World Content)
  | _, .snapshot, before, answer, after =>
      after = before ∧ ∀ snapshot, answer = .ok snapshot → Authentic binding before snapshot
  | _, .lockExchange, before, _, after => after = before
  | _, .lockedSnapshot, before, answer, after =>
      after = before ∧ ∀ snapshot, answer = .ok snapshot → Authentic binding before snapshot ∧
        ∀ file ∈ before.inbox, ∃ bundle, snapshot.inbox = some bundle ∧
          file.manifest.seq ≤ bundle.manifest.seq
  | _, .readFlow, before, answer, after =>
      after = before ∧ ∀ state, answer = .ok state → state = before.flow
  | _, .replaceFlow state, before, answer, after =>
      Writes before (before.replaceFlow state) () answer after
  | _, .reserveFlow state pending, before, answer, after =>
      Writes before (before.reserveFlow state pending) () answer after
  | _, .exportSnapshot _, before, _, after => after = before
  | _, .publish manifest files, before, answer, after =>
      Publishes before ⟨((before.flow.bind FlowState.pending).map .refresh), manifest, files⟩ answer
        after
  | _, .loadRegistry, before, answer, after =>
      after = before ∧ ∀ data, answer = .ok data → data = before.registry
  | _, .reserveRegistry data sequence, before, answer, after =>
      Writes before (before.reserveRegistry data sequence) () answer after
  | _, .latestInbox, before, answer, after =>
      after = before ∧ ∀ latest, answer = .ok latest → ∀ file ∈ before.inbox,
        ∃ seq manifest, latest = some (seq, manifest) ∧ file.manifest.seq ≤ seq
  | _, .publishMarker manifest files, before, answer, after =>
      Publishes before ⟨some (.imageUpdated manifest.seq), manifest, files⟩ answer after

/-! ### Loading the flow state -/

variable {binding : DriveBinding} {world : World Content}

/-- A state that the store gives. -/
def Loaded (binding : DriveBinding) (world : World Content) (state : FlowState) : Prop :=
  (world.flow = some state ∨ (world.flow = none ∧
    ∃ record, world.registry.drives[binding.driveId]? = some record ∧
      FlowState.fromRecord record = .ok state)) ∧
  state.validate binding = .ok ()

theorem reads_storedFlow {stored : Option FlowState} (isStored : stored = world.flow) :
    Reads (answers binding) (storedFlow binding stored) world fun state =>
      world.flow = some state ∨ (world.flow = none ∧
        ∃ record, world.registry.drives[binding.driveId]? = some record ∧
          FlowState.fromRecord record = .ok state) := by
  cases stored with
  | some state => exact reads_done (.inl isStored.symm)
  | none =>
    have registry : Reads (answers binding)
        (attempt .loadRegistry : Flow Content Host.RegistryData) world (· = world.registry) :=
      reads_attempt fun _ _ answers => answers
    refine reads_bind registry fun data isData => ?_
    subst isData
    split
    · exact reads_fail
    next record isRecord =>
      exact reads_ofExcept fun state isState => .inr ⟨isStored.symm, record, isRecord, isState⟩

theorem reads_loadFlow :
    Reads (answers binding) (loadFlow binding) world (Loaded binding world) := by
  refine reads_bind (reads_ofExcept fun _ _ => trivial) fun _ (_ : True) => ?_
  have stored : Reads (answers binding) (attempt .readFlow : Flow Content (Option FlowState)) world
      (· = world.flow) :=
    reads_attempt fun _ _ answers => answers
  refine reads_bind stored fun stored isStored => ?_
  refine reads_bind (reads_storedFlow isStored) fun state isState => ?_
  exact reads_bind (reads_ofExcept fun _ valid => valid) fun _ valid => reads_done ⟨isState, valid⟩

theorem reads_check {check : Except String Unit} :
    Reads (answers binding) (ofExcept check : Flow Content Unit) world fun _ => check = .ok () :=
  reads_ofExcept fun _ passed => passed

/-! ### Preparing a refresh -/

/-- What the preparation of a refresh has done: nothing, or it has reconciled the state with an
authentic snapshot, and saved it if it ended well. -/
inductive Prepares (runtime : FlowRuntime Content) (binding : DriveBinding) (target : String)
    (policy : FreshnessPolicy) (choices : RefreshChoices) (world : World Content) :
    Option (Except String PreparedRefresh) → World Content → Prop
  | nothing {outcome} (notDone : ∀ prepared, outcome ≠ some (.ok prepared)) :
      Prepares runtime binding target policy choices world outcome world
  | reconciled {outcome loaded snapshot state} (isLoaded : Loaded binding world loaded)
      (authentic : Authentic binding world snapshot)
      (isReconciled : reconcile loaded snapshot = .ok state)
      (ended : ∀ prepared, outcome = some (.ok prepared) → ∃ source analysis,
        applyChoices (analyseSnapshot runtime policy state snapshot source)
          choices.configuration = .ok analysis ∧
        prepared = prepareWith runtime binding target policy choices state snapshot source
          analysis) :
      Prepares runtime binding target policy choices world outcome (world.replaceFlow state)

theorem prepares_of_unchanged {runtime : FlowRuntime Content} {target : String}
    {policy : FreshnessPolicy} {choices : RefreshChoices} {after : World Content}
    {outcome : Option (Except String PreparedRefresh)}
    (unchanged : after = world ∧ ∀ prepared, outcome ≠ some (.ok prepared)) :
    Prepares runtime binding target policy choices world outcome after := by
  obtain ⟨rfl, notDone⟩ := unchanged
  exact .nothing notDone

theorem reaches_prepareRefresh (runtime : FlowRuntime Content) (target : String)
    (policy : FreshnessPolicy) (choices : RefreshChoices) {after : World Content}
    {outcome : Option (Except String PreparedRefresh)}
    (reaches : (prepareRefresh runtime binding target policy choices).Reaches (answers binding) world
      outcome after) :
    Prepares runtime binding target policy choices world outcome after := by
  have snapshots : Reads (answers binding)
      (attempt .snapshot : Flow Content (ExchangeSnapshot Content)) world (Authentic binding world) :=
    reads_attempt fun _ _ answers => answers
  obtain unchanged | ⟨snapshot, authentic, reaches⟩ := reaches.of_reads_bind snapshots
  · exact prepares_of_unchanged unchanged
  obtain unchanged | ⟨loaded, isLoaded, reaches⟩ := reaches.of_reads_bind reads_loadFlow
  · exact prepares_of_unchanged unchanged
  obtain unchanged | ⟨_, -, reaches⟩ := reaches.of_reads_bind reads_check
  · exact prepares_of_unchanged unchanged
  obtain unchanged | ⟨state, isReconciled, reaches⟩ :=
    reaches.of_reads_bind (reads_ofExcept fun _ reconciled => reconciled)
  · exact prepares_of_unchanged unchanged
  obtain unchanged | ⟨_, -, reaches⟩ := reaches.of_reads_bind reads_check
  · exact prepares_of_unchanged unchanged
  obtain ⟨rfl | rfl, notDone⟩ | reaches :=
    reaches.of_write_bind (world.replaceFlow state) fun _ _ writes => writes
  · exact .nothing notDone
  · exact .reconciled isLoaded authentic isReconciled fun _ ok => absurd ok (notDone _)
  have sources : Reads (answers binding) (attempt (.exportSnapshot target) :
      Flow Content (SourceSnapshot Content)) (world.replaceFlow state) fun _ => True :=
    reads_attempt fun _ _ same => ⟨same, fun _ _ => trivial⟩
  obtain ⟨rfl, notDone⟩ | ⟨source, -, reaches⟩ := reaches.of_reads_bind sources
  · exact .reconciled isLoaded authentic isReconciled fun _ ok => absurd ok (notDone _)
  obtain ⟨rfl, notDone⟩ | ⟨analysis, chosen, reaches⟩ :=
    reaches.of_reads_bind (reads_ofExcept fun _ chosen => chosen)
  · exact .reconciled isLoaded authentic isReconciled fun _ ok => absurd ok (notDone _)
  obtain ⟨rfl, ended⟩ := reaches.of_done
  refine .reconciled isLoaded authentic isReconciled fun prepared ok => ?_
  obtain cut | ended := ended
  · rw [cut] at ok
    cases ok
  · rw [ended] at ok
    cases ok
    exact ⟨source.manifest, analysis, chosen, rfl⟩

/-! ### Publishing a refresh -/

/-- A reservation by a refresh: a sequence after those that the state and the inbox know. -/
structure Reserves (binding : DriveBinding) (world : World Content) (prepared : PreparedRefresh)
    (reserved : FlowState) (pending : PendingRefresh) (manifest : BundleManifest) : Prop where
  sequence : ∃ state latest, Loaded binding world state ∧
    (∀ file ∈ world.inbox, file.manifest.seq ≤ latest) ∧
    pending.sequence = max (max state.inboxIssued state.inboxAcknowledged) latest + 1 ∧
    reserved = { state with inboxIssued := pending.sequence, pending := some pending }
  sameSeq : manifest.seq = pending.sequence
  included : ∀ entry ∈ manifest.entries, entry.path ∈ prepared.included
  proposed : pending.proposedHashes = (manifest.entries.filter fun entry =>
    entry.pathClass.isConfig).map fun entry => (entry.path, entry.sha256)

/-- What the publication of a refresh has done: nothing, a reservation, or the publication too. -/
inductive PublishesRefresh (binding : DriveBinding) (prepared : PreparedRefresh)
    (world : World Content) : World Content → Prop
  | nothing : PublishesRefresh binding prepared world world
  | reserved {state pending manifest}
      (reserves : Reserves binding world prepared state pending manifest) :
      PublishesRefresh binding prepared world (world.reserveFlow state pending)
  | published {state pending manifest files kept}
      (reserves : Reserves binding world prepared state pending manifest)
      (remain : kept ⊆ world.inbox) :
      PublishesRefresh binding prepared world ((world.reserveFlow state pending).publish
        ⟨some (.refresh pending), manifest, files⟩ kept)

theorem reaches_publishEntries (runtime : FlowRuntime Content) {prepared : PreparedRefresh}
    {state : FlowState} (isLoaded : Loaded binding world state) {latest sequence : Nat}
    (newest : ∀ file ∈ world.inbox, file.manifest.seq ≤ latest)
    (next : sequence = max (max state.inboxIssued state.inboxAcknowledged) latest + 1)
    {sourceDigest createdAt : String} {entries : List BundleEntry}
    (included : ∀ entry ∈ entries, entry.path ∈ prepared.included) {files : Members Content}
    {after : World Content} {outcome : Option (Except String RefreshResult)}
    (reaches : (publishEntries runtime prepared state sourceDigest createdAt sequence entries
      files).Reaches (answers binding) world outcome after) :
    PublishesRefresh binding prepared world after := by
  let pending : PendingRefresh :=
    { sequence := sequence
      sourceDigest := sourceDigest
      selectionDigest := prepared.selectionDigest
      proposedHashes := (entries.filter fun entry => entry.pathClass.isConfig).map fun entry =>
        (entry.path, entry.sha256) }
  let reserved : FlowState := { state with inboxIssued := sequence, pending := some pending }
  have reserves : Reserves binding world prepared reserved pending
      (refreshManifest sequence createdAt entries) :=
    ⟨⟨state, latest, isLoaded, newest, next, rfl⟩, rfl, included, rfl⟩
  obtain ⟨rfl, -⟩ | ⟨_, -, reaches⟩ := reaches.of_reads_bind reads_check
  · exact .nothing
  obtain ⟨rfl, -⟩ | ⟨_, -, reaches⟩ := reaches.of_reads_bind reads_check
  · exact .nothing
  obtain ⟨rfl | rfl, -⟩ | reaches :=
    reaches.of_write_bind (world.reserveFlow reserved pending) fun _ _ writes => writes
  · exact .nothing
  · exact .reserved reserves
  obtain ⟨-, rfl⟩ | ⟨answer, between, publishes, goesOn⟩ := reaches.of_attempt_bind
  · exact .reserved reserves
  have same : after = between := by
    obtain ⟨same, -⟩ | ⟨_, -, rest⟩ := goesOn
    · exact same
    · exact rest.of_done.1
  subst same
  obtain ⟨rfl, -⟩ | ⟨kept, remain, -, rfl⟩ := publishes
  · exact .reserved reserves
  · exact .published reserves remain

theorem reaches_publishRefresh (runtime : FlowRuntime Content) (prepared : PreparedRefresh)
    (createdAt : String) {after : World Content} {outcome : Option (Except String RefreshResult)}
    (reaches : (publishRefresh runtime prepared binding createdAt).Reaches (answers binding) world
      outcome after) :
    PublishesRefresh binding prepared world after := by
  have locks : Reads (answers binding) (attempt .lockExchange : Flow Content Unit) world
      fun _ => True :=
    reads_attempt fun _ _ same => ⟨same, fun _ _ => trivial⟩
  have sources : Reads (answers binding) (attempt (.exportSnapshot prepared.source) :
      Flow Content (SourceSnapshot Content)) world fun _ => True :=
    reads_attempt fun _ _ same => ⟨same, fun _ _ => trivial⟩
  have snapshots : Reads (answers binding)
      (attempt .lockedSnapshot : Flow Content (ExchangeSnapshot Content)) world fun snapshot =>
        ∀ file ∈ world.inbox, ∃ bundle, snapshot.inbox = some bundle ∧
          file.manifest.seq ≤ bundle.manifest.seq :=
    reads_attempt fun _ _ answers => ⟨answers.1, fun _ ok => (answers.2 _ ok).2⟩
  obtain ⟨rfl, -⟩ | ⟨_, -, reaches⟩ := reaches.of_reads_bind reads_check
  · exact .nothing
  obtain ⟨rfl, -⟩ | ⟨_, -, reaches⟩ := reaches.of_reads_bind locks
  · exact .nothing
  obtain ⟨rfl, -⟩ | ⟨state, isLoaded, reaches⟩ := reaches.of_reads_bind reads_loadFlow
  · exact .nothing
  obtain ⟨rfl, -⟩ | ⟨_, -, reaches⟩ := reaches.of_reads_bind reads_check
  · exact .nothing
  obtain ⟨rfl, -⟩ | ⟨_, -, reaches⟩ := reaches.of_reads_bind reads_check
  · exact .nothing
  obtain ⟨rfl, -⟩ | ⟨source, -, reaches⟩ := reaches.of_reads_bind sources
  · exact .nothing
  obtain ⟨rfl, -⟩ | ⟨_, -, reaches⟩ := reaches.of_reads_bind reads_check
  · exact .nothing
  obtain ⟨rfl, -⟩ | ⟨snapshot, newest, reaches⟩ := reaches.of_reads_bind snapshots
  · exact .nothing
  obtain ⟨rfl, -⟩ | ⟨_, -, reaches⟩ := reaches.of_reads_bind reads_check
  · exact .nothing
  split at reaches
  · obtain ⟨rfl, -⟩ := reaches.of_fail
    exact .nothing
  · obtain ⟨rfl, -⟩ := reaches.of_done
    exact .nothing
  · obtain ⟨rfl, -⟩ := reaches.of_done
    exact .nothing
  obtain ⟨rfl, -⟩ | ⟨sequence, isNext, reaches⟩ :=
    reaches.of_reads_bind (reads_ofExcept fun _ next => next)
  · exact .nothing
  have newest' : ∀ file ∈ world.inbox, file.manifest.seq ≤
      (snapshot.inbox.map fun inbox => inbox.manifest.seq).getD 0 := by
    intro file member
    obtain ⟨bundle, isBundle, atMost⟩ := newest file member
    rw [isBundle]
    exact atMost
  refine reaches_publishEntries runtime isLoaded newest' ?_ ?_ reaches
  · unfold nextSequence at isNext
    split at isNext
    · exact (Except.ok.inj isNext).symm
    · cases isNext
  · intro entry member
    exact List.contains_iff_mem.mp (List.mem_filter.mp member).2

/-! ### Announcing an image update -/

/-- What the announcement of an image update has done. -/
inductive Announces (binding : DriveBinding) (world : World Content) : World Content → Prop
  | nothing : Announces binding world world
  | reserved {previous sequence data}
      (newest : ∀ file ∈ world.inbox, file.manifest.seq ≤ previous)
      (reserves : reserveUpdateInbox world.registry binding.driveId previous = .ok (sequence, data)) :
      Announces binding world (world.reserveRegistry data sequence)
  | published {previous sequence data manifest files kept}
      (newest : ∀ file ∈ world.inbox, file.manifest.seq ≤ previous)
      (reserves : reserveUpdateInbox world.registry binding.driveId previous = .ok (sequence, data))
      (isManifest : manifest.seq = sequence) (remain : kept ⊆ world.inbox) :
      Announces binding world ((world.reserveRegistry data sequence).publish
        ⟨some (.imageUpdated sequence), manifest, files⟩ kept)

/-- A reservation in the registry was made or not, and it was if there is a result. -/
theorem reaches_reserveUpdateSequence {previous : Nat} {after : World Content}
    {outcome : Option (Except String Nat)}
    (reaches : (reserveUpdateSequence binding.driveId previous).Reaches (answers binding) world
      outcome after) :
    (after = world ∧ ∀ sequence, outcome ≠ some (.ok sequence)) ∨
      ∃ sequence data,
        reserveUpdateInbox world.registry binding.driveId previous = .ok (sequence, data) ∧
        after = world.reserveRegistry data sequence ∧
        ∀ result, outcome = some (.ok result) → result = sequence := by
  have registry : Reads (answers binding)
      (attempt .loadRegistry : Flow Content Host.RegistryData) world (· = world.registry) :=
    reads_attempt fun _ _ answers => answers
  obtain unchanged | ⟨data, rfl, reaches⟩ := reaches.of_reads_bind registry
  · exact .inl unchanged
  split at reaches
  · obtain ⟨same, cut | failed⟩ := reaches.of_fail
    · exact .inl ⟨same, fun _ ok => by rw [cut] at ok; cases ok⟩
    · exact .inl ⟨same, fun _ ok => by rw [failed] at ok; cases ok⟩
  next sequence data reserves =>
    obtain ⟨rfl | rfl, notDone⟩ | reaches :=
      reaches.of_write_bind (world.reserveRegistry data sequence) fun _ _ writes => writes
    · exact .inl ⟨rfl, notDone⟩
    · exact .inr ⟨sequence, data, reserves, rfl, fun _ ok => absurd ok (notDone _)⟩
    · obtain ⟨rfl, cut | ended⟩ := reaches.of_done
      · exact .inr ⟨sequence, data, reserves, rfl, fun _ ok => by rw [cut] at ok; cases ok⟩
      · refine .inr ⟨sequence, data, reserves, rfl, fun _ ok => ?_⟩
        rw [ended] at ok
        exact (Except.ok.inj (Option.some.inj ok)).symm

theorem reaches_publishImageUpdated (runtime : FlowRuntime Content) (image : Host.InstalledImage)
    (createdAt : String) {after : World Content} {outcome : Option (Except String Nat)}
    (reaches : (publishImageUpdated runtime binding.driveId image createdAt).Reaches
      (answers binding) world outcome after) :
    Announces binding world after := by
  have locks : Reads (answers binding) (attempt .lockExchange : Flow Content Unit) world
      fun _ => True :=
    reads_attempt fun _ _ same => ⟨same, fun _ _ => trivial⟩
  have latest : Reads (answers binding)
      (attempt .latestInbox : Flow Content (Option (Nat × BundleManifest))) world fun latest =>
        ∀ file ∈ world.inbox, ∃ seq manifest, latest = some (seq, manifest) ∧
          file.manifest.seq ≤ seq :=
    reads_attempt fun _ _ answers => answers
  obtain ⟨rfl, -⟩ | ⟨_, -, reaches⟩ := reaches.of_reads_bind reads_check
  · exact .nothing
  obtain ⟨rfl, -⟩ | ⟨_, -, reaches⟩ := reaches.of_reads_bind locks
  · exact .nothing
  obtain ⟨rfl, -⟩ | ⟨latest, newest, reaches⟩ := reaches.of_reads_bind latest
  · exact .nothing
  split at reaches
  · obtain ⟨rfl, -⟩ := reaches.of_fail
    exact .nothing
  next previous previousManifest =>
  have newest' : ∀ file ∈ world.inbox, file.manifest.seq ≤ previous := by
    intro file member
    obtain ⟨_, _, same, atMost⟩ := newest file member
    cases same
    exact atMost
  obtain ⟨rfl, -⟩ | ⟨_, -, reaches⟩ := reaches.of_reads_bind reads_check
  · exact .nothing
  have ends : ∀ {outcome between}, (reserveUpdateSequence binding.driveId previous).Reaches
      (answers binding) world outcome between → Announces binding world between := by
    intro outcome between reached
    obtain ⟨rfl, -⟩ | ⟨sequence, data, reserves, rfl, -⟩ := reaches_reserveUpdateSequence reached
    · exact .nothing
    · exact .reserved newest' reserves
  obtain ⟨-, reached⟩ | ⟨error, -, reached⟩ | ⟨sequence, between, reached, reaches⟩ :=
    Reaches.of_bind _ reaches
  · exact ends reached
  · exact ends reached
  obtain ⟨-, notDone⟩ | ⟨other, data, reserves, rfl, same⟩ := reaches_reserveUpdateSequence reached
  · exact absurd rfl (notDone sequence)
  obtain rfl := same sequence rfl
  obtain ⟨rfl, -⟩ | ⟨_, -, reaches⟩ := reaches.of_reads_bind reads_check
  · exact .reserved newest' reserves
  obtain ⟨rfl, -⟩ | ⟨_, -, reaches⟩ := reaches.of_reads_bind reads_check
  · exact .reserved newest' reserves
  obtain ⟨-, rfl⟩ | ⟨answer, between, publishes, goesOn⟩ := reaches.of_attempt_bind
  · exact .reserved newest' reserves
  have same : after = between := by
    obtain ⟨same, -⟩ | ⟨_, -, rest⟩ := goesOn
    · exact same
    · exact rest.of_done.1
  subst same
  obtain ⟨rfl, -⟩ | ⟨kept, remain, -, rfl⟩ := publishes
  · exact .reserved newest' reserves
  · exact .published newest' reserves rfl remain

end AiSwitcher.Exchange
