/-
This file proves when the sequence numbers of inbox bundles are never reused. A computer
keeps two marks of the numbers it has issued, one in the flow state, which refreshes lift, and
one in the drive registry, which the announcements of image updates lift. Either publisher goes
by its own mark and by what it sees in the inbox; so a number that was reserved by one of them and
never published can be reserved again by the other.

Where every reservation finds its own mark, or the inbox, up to the mark of the other publisher,
the numbers only increase, and an acknowledgement clears a refresh only for its own bundle or
a later one.
-/

import AiSwitcher.Exchange.Computer
import Mathlib.Data.List.Pairwise

namespace AiSwitcher.Exchange

open JavaScript Interrupted Program

variable {Content : Type}

/-! ### What a reconciliation changes -/

/-- A reconciliation has cleared a pending refresh: an authentic outbox acknowledges its sequence
or a later one. -/
def ClearedBy (snapshot : ExchangeSnapshot Content) (pending : PendingRefresh) (state : FlowState) :
    Prop :=
  state.pending = none ∧ pending.sequence ≤ state.inboxAcknowledged ∧
    ∃ outbox, snapshot.outbox = some outbox ∧
      outbox.manifest.lastInboxSeq = some state.inboxAcknowledged

/-- A reconciliation keeps the pending refresh or clears it, and never lowers the mark. -/
theorem reconcile_spec {loaded state : FlowState} {snapshot : ExchangeSnapshot Content}
    (reconciled : reconcile loaded snapshot = .ok state) :
    loaded.inboxIssued ≤ state.inboxIssued ∧ (state.pending = loaded.pending ∨
      ∃ pending, loaded.pending = some pending ∧ ClearedBy snapshot pending state) := by
  obtain ⟨-, reconciled⟩ := (check_bind_eq_ok _ _ _).mp reconciled
  dsimp only at reconciled
  have issued : loaded.inboxIssued ≤ max loaded.inboxIssued
      (((snapshot.inbox.map AuthenticatedBundle.manifest).map BundleManifest.seq).getD 0) :=
    le_max_left _ _
  split at reconciled
  · cases reconciled
    exact ⟨issued, .inl rfl⟩
  next outbox isOutbox =>
  split at reconciled
  · cases reconciled
    exact ⟨issued, .inl rfl⟩
  split at reconciled
  · obtain ⟨-, ended⟩ := (ensure_bind_eq_ok _ _ _ _).mp reconciled
    cases ended
    exact ⟨issued, .inl rfl⟩
  split at reconciled
  · cases reconciled
  next acknowledged isAcknowledged =>
  split at reconciled
  · cases reconciled
    exact ⟨issued, .inl rfl⟩
  cases reconciled
  refine ⟨issued.trans (le_max_left _ _), ?_⟩
  unfold acknowledge
  cases isPending : loaded.pending with
  | none => exact .inl rfl
  | some pending =>
    by_cases covered : pending.sequence ≤ acknowledged
    · refine .inr ⟨pending, rfl, ?_, covered, outbox, isOutbox, isAcknowledged⟩
      simp [covered]
    · refine .inl ?_
      simp [covered]

theorem fromRecord_spec {record : Host.DriveRecord} {state : FlowState}
    (from_ : FlowState.fromRecord record = .ok state) :
    state.inboxIssued = record.inboxIssued ∧ state.pending = none := by
  obtain ⟨-, ended⟩ := (check_bind_eq_ok _ _ _).mp from_
  cases ended
  exact ⟨rfl, rfl⟩

/-! ### Runs -/

/-- A computer with an exchange, and the last inbox the drive has applied. -/
structure Site (Content : Type) where
  host : World Content
  lastInboxSeq : Nat

/-- The operations that touch the sequence numbers. -/
inductive Call (Content : Type) where
  | prepare (target : String) (policy : FreshnessPolicy) (choices : RefreshChoices)
  | publish (prepared : PreparedRefresh) (createdAt : String)
  | announce (image : Host.InstalledImage) (createdAt : String)
  | apply (bundle : Publication Content)
  | exports (outbox : AuthenticatedBundle Content)
  | prune (kept : List (Publication Content))

/-- One operation, which may be cut off anywhere. The drive applies a bundle of its inbox and
acknowledges the last one in its outboxes. -/
inductive Step (runtime : FlowRuntime Content) (binding : DriveBinding) :
    Call Content → Site Content → Site Content → Prop
  | prepare {site target policy choices outcome after}
      (reaches : (prepareRefresh runtime binding target policy choices).Reaches (answers binding)
        site.host outcome after) :
      Step runtime binding (.prepare target policy choices) site { site with host := after }
  | publish {site prepared createdAt outcome after}
      (reaches : (publishRefresh runtime prepared binding createdAt).Reaches (answers binding)
        site.host outcome after) :
      Step runtime binding (.publish prepared createdAt) site { site with host := after }
  | announce {site image createdAt outcome after}
      (reaches : (publishImageUpdated runtime binding.driveId image createdAt).Reaches
        (answers binding) site.host outcome after) :
      Step runtime binding (.announce image createdAt) site { site with host := after }
  | apply {site bundle} (member : bundle ∈ site.host.inbox) :
      Step runtime binding (.apply bundle) site
        { site with lastInboxSeq := max site.lastInboxSeq bundle.manifest.seq }
  | exports {site outbox}
      (acknowledges : outbox.manifest.lastInboxSeq = some site.lastInboxSeq) :
      Step runtime binding (.exports outbox) site
        { site with host := { site.host with exported := outbox :: site.host.exported } }
  | prune {site kept} (remain : kept ⊆ site.host.inbox)
      (newest : ∀ file ∈ site.host.inbox, ∃ newer ∈ kept, file.manifest.seq ≤ newer.manifest.seq) :
      Step runtime binding (.prune kept) site { site with host := { site.host with inbox := kept } }

namespace World

/-- The newest bundle in the inbox. -/
def latestSeq (world : World Content) : Nat :=
  (world.inbox.map fun file => file.manifest.seq).foldr max 0

/-- Refreshes know of every reservation in the registry. -/
def SeesRegistry (binding : DriveBinding) (world : World Content) : Prop :=
  ∀ state record, world.flow = some state →
    world.registry.drives[binding.driveId]? = some record →
      record.inboxIssued ≤ max (max state.inboxIssued state.inboxAcknowledged) world.latestSeq

/-- Announcements know of every reservation in the flow state. -/
def SeesFlow (binding : DriveBinding) (world : World Content) : Prop :=
  ∀ state record, world.flow = some state →
    world.registry.drives[binding.driveId]? = some record →
      state.inboxIssued ≤ max (max record.inboxIssued record.inboxAcknowledged) world.latestSeq

theorem latestSeq_le {world : World Content} {bound : Nat}
    (bounds : ∀ file ∈ world.inbox, file.manifest.seq ≤ bound) : world.latestSeq ≤ bound := by
  have atMost : ∀ files : List (Publication Content), (∀ file ∈ files, file.manifest.seq ≤ bound) →
      (files.map fun file => file.manifest.seq).foldr max 0 ≤ bound := by
    intro files
    induction files with
    | nil => exact fun _ => Nat.zero_le bound
    | cons file files inductionHypothesis =>
      intro bounds
      exact max_le (bounds file List.mem_cons_self) (inductionHypothesis fun other member =>
        bounds other (List.mem_cons_of_mem _ member))
  exact atMost world.inbox bounds

end World

/-- A publisher that reserves a number knows of the other's reservations. -/
def InView (binding : DriveBinding) (site : Site Content) : Call Content → Prop
  | .publish _ _ => site.host.SeesRegistry binding
  | .announce _ _ => site.host.SeesFlow binding
  | _ => True

/-- A new drive: the flow state is not there yet, and what is in the inbox was put there when the
drive was created. -/
structure Created (site : Site Content) : Prop where
  flow : site.host.flow = none
  reserved : site.host.reserved = []
  published : site.host.published = site.host.inbox
  creation : ∀ file ∈ site.host.inbox, file.reservation = none
  distinct : site.host.inbox.Pairwise fun first second => first.manifest.seq ≠ second.manifest.seq
  exported : site.host.exported = []
  notApplied : site.lastInboxSeq = 0

/-! ### The invariant -/

/-- Every reservation is below the mark of its publisher, every publication has its own
reservation, and every acknowledgement has its publication. -/
structure Invariant (binding : DriveBinding) (site : Site Content) : Prop where
  increasing : (site.host.reserved.map Reservation.sequence).Pairwise (· < ·)
  refreshMark : ∀ pending, .refresh pending ∈ site.host.reserved →
    ∃ state, site.host.flow = some state ∧ pending.sequence ≤ state.inboxIssued
  announceMark : ∀ sequence, .imageUpdated sequence ∈ site.host.reserved →
    ∃ record, site.host.registry.drives[binding.driveId]? = some record ∧
      sequence ≤ record.inboxIssued
  pending : ∀ state pending, site.host.flow = some state → state.pending = some pending →
    .refresh pending ∈ site.host.reserved
  distinct : site.host.published.Pairwise fun first second =>
    first.manifest.seq ≠ second.manifest.seq
  reservation : ∀ publication ∈ site.host.published, ∀ reservation,
    publication.reservation = some reservation →
      reservation ∈ site.host.reserved ∧ reservation.sequence = publication.manifest.seq
  creation : ∀ publication ∈ site.host.published, publication.reservation = none →
    ∀ reservation ∈ site.host.reserved, publication.manifest.seq < reservation.sequence
  inbox : site.host.inbox ⊆ site.host.published
  newest : ∀ publication ∈ site.host.published,
    ∃ file ∈ site.host.inbox, publication.manifest.seq ≤ file.manifest.seq
  applied : site.lastInboxSeq = 0 ∨
    ∃ publication ∈ site.host.published, publication.manifest.seq = site.lastInboxSeq
  acknowledged : ∀ outbox ∈ site.host.exported, ∀ sequence,
    outbox.manifest.lastInboxSeq = some sequence → sequence = 0 ∨
      ∃ publication ∈ site.host.published, publication.manifest.seq = sequence

variable {binding : DriveBinding} {site : Site Content}

theorem invariant_created (created : Created site) : Invariant binding site where
  increasing := by rw [created.reserved]; exact List.Pairwise.nil
  refreshMark := by rw [created.reserved]; exact fun _ member => nomatch member
  announceMark := by rw [created.reserved]; exact fun _ member => nomatch member
  pending := by rw [created.flow]; exact fun _ _ none => nomatch none
  distinct := by rw [created.published]; exact created.distinct
  reservation := by
    rw [created.published]
    intro publication member reservation isSome
    rw [created.creation publication member] at isSome
    cases isSome
  creation := by rw [created.reserved]; exact fun _ _ _ _ member => nomatch member
  inbox := by rw [created.published]; exact fun _ member => member
  newest := by rw [created.published]; exact fun file member => ⟨file, member, le_rfl⟩
  applied := .inl created.notApplied
  acknowledged := by rw [created.exported]; exact fun _ member => nomatch member

/-- A reconciled state takes the place of the loaded one. -/
theorem Invariant.replaceFlow (invariant : Invariant binding site) {loaded state : FlowState}
    (isLoaded : Loaded binding site.host loaded) (mark : loaded.inboxIssued ≤ state.inboxIssued)
    (pending : state.pending = loaded.pending ∨ state.pending = none) :
    Invariant binding { site with host := site.host.replaceFlow state } :=
  { invariant with
    refreshMark := by
      intro pending member
      obtain ⟨other, isFlow, below⟩ := invariant.refreshMark pending member
      obtain isOther | ⟨none, -⟩ := isLoaded.1
      · obtain rfl := Option.some.inj (isOther.symm.trans isFlow)
        exact ⟨state, rfl, below.trans mark⟩
      · rw [none] at isFlow
        cases isFlow
    pending := by
      intro other held isFlow isPending
      obtain rfl := Option.some.inj isFlow
      obtain same | none := pending
      · rw [same] at isPending
        obtain isFlow | ⟨-, record, -, from_⟩ := isLoaded.1
        · exact invariant.pending loaded held isFlow isPending
        · rw [(fromRecord_spec from_).2] at isPending
          cases isPending
      · rw [none] at isPending
        cases isPending }

/-- A new reservation is after all others, and after every bundle. -/
structure Fresh (site : Site Content) (sequence : Nat) : Prop where
  reserved : ∀ reservation ∈ site.host.reserved, reservation.sequence < sequence
  inbox : ∀ file ∈ site.host.inbox, file.manifest.seq < sequence

theorem Invariant.published_lt (invariant : Invariant binding site) {sequence : Nat}
    (fresh : Fresh site sequence) {publication : Publication Content}
    (member : publication ∈ site.host.published) : publication.manifest.seq < sequence := by
  obtain ⟨file, inInbox, atMost⟩ := invariant.newest publication member
  exact atMost.trans_lt (fresh.inbox file inInbox)

theorem Invariant.increasing_append (invariant : Invariant binding site)
    {reservation : Reservation} (fresh : Fresh site reservation.sequence) :
    ((site.host.reserved ++ [reservation]).map Reservation.sequence).Pairwise (· < ·) := by
  rw [List.map_append, List.pairwise_append]
  refine ⟨invariant.increasing, List.pairwise_singleton _ _, ?_⟩
  intro sequence member other isOther
  obtain ⟨earlier, isEarlier, rfl⟩ := List.mem_map.mp member
  obtain rfl := List.mem_singleton.mp isOther
  exact fresh.reserved earlier isEarlier

/-- A reservation that was made and not published. -/
theorem Invariant.reserve (invariant : Invariant binding site) (reservation : Reservation)
    (fresh : Fresh site reservation.sequence) {after : World Content}
    (reserved : after.reserved = site.host.reserved ++ [reservation])
    (published : after.published = site.host.published) (inbox : after.inbox = site.host.inbox)
    (exported : after.exported = site.host.exported)
    (refreshMark : ∀ pending, .refresh pending ∈ after.reserved →
      ∃ state, after.flow = some state ∧ pending.sequence ≤ state.inboxIssued)
    (announceMark : ∀ sequence, .imageUpdated sequence ∈ after.reserved →
      ∃ record, after.registry.drives[binding.driveId]? = some record ∧
        sequence ≤ record.inboxIssued)
    (pending : ∀ state pending, after.flow = some state → state.pending = some pending →
      .refresh pending ∈ after.reserved) :
    Invariant binding { site with host := after } where
  increasing := by rw [reserved]; exact invariant.increasing_append fresh
  refreshMark := refreshMark
  announceMark := announceMark
  pending := pending
  distinct := by rw [published]; exact invariant.distinct
  reservation := by
    rw [published, reserved]
    intro publication member held isHeld
    obtain ⟨isReserved, same⟩ := invariant.reservation publication member held isHeld
    exact ⟨List.mem_append_left _ isReserved, same⟩
  creation := by
    rw [published, reserved]
    intro publication member none held isHeld
    obtain isHeld | isHeld := List.mem_append.mp isHeld
    · exact invariant.creation publication member none held isHeld
    · obtain rfl := List.mem_singleton.mp isHeld
      exact invariant.published_lt fresh member
  inbox := by rw [published, inbox]; exact invariant.inbox
  newest := by rw [published, inbox]; exact invariant.newest
  applied := by rw [published]; exact invariant.applied
  acknowledged := by rw [published, exported]; exact invariant.acknowledged

/-- The publication of the last reservation. -/
theorem Invariant.publish (invariant : Invariant binding site) (publication : Publication Content)
    {reservation : Reservation} (isReservation : publication.reservation = some reservation)
    (isReserved : reservation ∈ site.host.reserved)
    (sameSeq : reservation.sequence = publication.manifest.seq)
    (newest : ∀ file ∈ site.host.inbox, file.manifest.seq < publication.manifest.seq)
    {kept : List (Publication Content)} (remain : kept ⊆ site.host.inbox) :
    Invariant binding { site with host := site.host.publish publication kept } :=
  have before : ∀ other ∈ site.host.published, other.manifest.seq < publication.manifest.seq := by
    intro other member
    obtain ⟨file, inInbox, atMost⟩ := invariant.newest other member
    exact atMost.trans_lt (newest file inInbox)
  { invariant with
    distinct := List.pairwise_cons.mpr ⟨fun other member => (before other member).ne',
      invariant.distinct⟩
    reservation := by
      rintro other (_ | ⟨_, member⟩) held isHeld
      · obtain rfl := Option.some.inj (isReservation.symm.trans isHeld)
        exact ⟨isReserved, sameSeq⟩
      · exact invariant.reservation other member held isHeld
    creation := by
      rintro other (_ | ⟨_, member⟩) none held isHeld
      · rw [isReservation] at none
        cases none
      · exact invariant.creation other member none held isHeld
    inbox := by
      rintro file (_ | ⟨_, member⟩)
      · exact List.mem_cons_self
      · exact List.mem_cons_of_mem _ (invariant.inbox (remain member))
    newest := by
      rintro other (_ | ⟨_, member⟩)
      · exact ⟨publication, List.mem_cons_self, le_rfl⟩
      · exact ⟨publication, List.mem_cons_self, (before other member).le⟩
    applied := invariant.applied.imp id fun ⟨other, member, same⟩ =>
      ⟨other, List.mem_cons_of_mem _ member, same⟩
    acknowledged := fun outbox member sequence acknowledges =>
      (invariant.acknowledged outbox member sequence acknowledges).imp id
        fun ⟨other, member, same⟩ => ⟨other, List.mem_cons_of_mem _ member, same⟩ }

/-! ### The steps -/

theorem Invariant.prepare (invariant : Invariant binding site) {runtime : FlowRuntime Content}
    {target : String} {policy : FreshnessPolicy} {choices : RefreshChoices}
    {outcome : Option (Except String PreparedRefresh)} {after : World Content}
    (prepares : Prepares runtime binding target policy choices site.host outcome after) :
    Invariant binding { site with host := after } := by
  cases prepares with
  | nothing => exact invariant
  | reconciled isLoaded _ isReconciled =>
    obtain ⟨mark, kept | ⟨pending, -, none, -⟩⟩ := reconcile_spec isReconciled
    · exact invariant.replaceFlow isLoaded mark (.inl kept)
    · exact invariant.replaceFlow isLoaded mark (.inr none)

/-- A refresh that knows of the registry's reservations reserves a fresh number. -/
theorem fresh_of_reserves (invariant : Invariant binding site)
    (sees : site.host.SeesRegistry binding) {prepared : PreparedRefresh} {reserved : FlowState}
    {pending : PendingRefresh} {manifest : BundleManifest}
    (reserves : Reserves binding site.host prepared reserved pending manifest) :
    Fresh site pending.sequence := by
  obtain ⟨state, latest, isLoaded, newest, next, -⟩ := reserves.sequence
  refine ⟨?_, fun file member => ?_⟩
  · rintro (earlier | sequence) member
    · obtain ⟨other, isFlow, below⟩ := invariant.refreshMark earlier member
      obtain isState | ⟨none, -⟩ := isLoaded.1
      · obtain rfl := Option.some.inj (isState.symm.trans isFlow)
        show earlier.sequence < pending.sequence
        omega
      · rw [none] at isFlow
        cases isFlow
    · obtain ⟨record, isRecord, below⟩ := invariant.announceMark sequence member
      show sequence < pending.sequence
      obtain isState | ⟨-, other, isOther, from_⟩ := isLoaded.1
      · have seen := sees state record isState isRecord
        have atMost := World.latestSeq_le newest
        omega
      · obtain rfl := Option.some.inj (isOther.symm.trans isRecord)
        rw [(fromRecord_spec from_).1] at next
        omega
  · have atMost := newest file member
    omega

theorem Invariant.reserveFlow (invariant : Invariant binding site)
    (sees : site.host.SeesRegistry binding) {prepared : PreparedRefresh} {reserved : FlowState}
    {pending : PendingRefresh} {manifest : BundleManifest}
    (reserves : Reserves binding site.host prepared reserved pending manifest) :
    Invariant binding { site with host := site.host.reserveFlow reserved pending } := by
  have fresh := fresh_of_reserves invariant sees reserves
  obtain ⟨state, latest, -, -, -, isReserved⟩ := reserves.sequence
  have mark : reserved.inboxIssued = pending.sequence := by rw [isReserved]
  refine invariant.reserve (.refresh pending) fresh rfl rfl rfl rfl ?_ ?_ ?_
  · intro earlier member
    refine ⟨reserved, rfl, ?_⟩
    rw [mark]
    obtain member | member := List.mem_append.mp member
    · exact (fresh.reserved _ member).le
    · cases List.mem_singleton.mp member
      exact le_rfl
  · intro sequence member
    obtain member | member := List.mem_append.mp member
    · exact invariant.announceMark sequence member
    · cases List.mem_singleton.mp member
  · intro other held isFlow isPending
    obtain rfl := Option.some.inj isFlow
    rw [isReserved] at isPending
    obtain rfl := Option.some.inj isPending
    exact List.mem_append_right _ (List.mem_singleton_self _)

theorem Invariant.publishRefresh (invariant : Invariant binding site)
    (sees : site.host.SeesRegistry binding) {prepared : PreparedRefresh} {after : World Content}
    (publishes : PublishesRefresh binding prepared site.host after) :
    Invariant binding { site with host := after } := by
  cases publishes with
  | nothing => exact invariant
  | reserved reserves => exact invariant.reserveFlow sees reserves
  | @published state pending manifest files _ reserves remain =>
    have fresh := fresh_of_reserves invariant sees reserves
    refine (invariant.reserveFlow sees reserves).publish
      ⟨some (.refresh pending), manifest, files⟩ rfl (List.mem_append_right _ (List.mem_singleton_self _)) reserves.sameSeq.symm ?_ remain
    intro file member
    show file.manifest.seq < _
    rw [reserves.sameSeq]
    exact fresh.inbox file member

theorem reserveUpdateInbox_spec {data reserved : Host.RegistryData} {id : String}
    {minimum sequence : Nat} (reserves : reserveUpdateInbox data id minimum = .ok (sequence, reserved)) :
    ∃ record, data.drives[id]? = some record ∧
      sequence = max (max record.inboxIssued record.inboxAcknowledged) minimum + 1 ∧
      reserved.drives[id]? = some { record with inboxIssued := sequence } := by
  unfold reserveUpdateInbox at reserves
  split at reserves
  · cases reserves
  next record isRecord =>
  dsimp only at reserves
  split at reserves
  · cases reserves
  · cases reserves
    exact ⟨record, isRecord, rfl, Std.TreeMap.getElem?_insert_self⟩

/-- An announcement that knows of the flow state's reservations reserves a fresh number. -/
theorem fresh_of_announce (invariant : Invariant binding site) (sees : site.host.SeesFlow binding)
    {previous sequence : Nat} {data : Host.RegistryData}
    (newest : ∀ file ∈ site.host.inbox, file.manifest.seq ≤ previous)
    (reserves : reserveUpdateInbox site.host.registry binding.driveId previous =
      .ok (sequence, data)) : Fresh site sequence := by
  obtain ⟨record, isRecord, next, -⟩ := reserveUpdateInbox_spec reserves
  refine ⟨?_, fun file member => ?_⟩
  · rintro (earlier | other) member
    · obtain ⟨state, isFlow, below⟩ := invariant.refreshMark earlier member
      have seen := sees state record isFlow isRecord
      have atMost := World.latestSeq_le newest
      show earlier.sequence < sequence
      omega
    · obtain ⟨held, isHeld, below⟩ := invariant.announceMark other member
      obtain rfl := Option.some.inj (isHeld.symm.trans isRecord)
      show other < sequence
      omega
  · have atMost := newest file member
    omega

theorem Invariant.reserveRegistry (invariant : Invariant binding site)
    (sees : site.host.SeesFlow binding) {previous sequence : Nat} {data : Host.RegistryData}
    (newest : ∀ file ∈ site.host.inbox, file.manifest.seq ≤ previous)
    (reserves : reserveUpdateInbox site.host.registry binding.driveId previous =
      .ok (sequence, data)) :
    Invariant binding { site with host := site.host.reserveRegistry data sequence } := by
  have fresh := fresh_of_announce invariant sees newest reserves
  obtain ⟨record, isRecord, next, isReserved⟩ := reserveUpdateInbox_spec reserves
  refine invariant.reserve (.imageUpdated sequence) fresh rfl rfl rfl rfl ?_ ?_ ?_
  · intro pending member
    obtain member | member := List.mem_append.mp member
    · exact invariant.refreshMark pending member
    · cases List.mem_singleton.mp member
  · intro other member
    refine ⟨_, isReserved, ?_⟩
    obtain member | member := List.mem_append.mp member
    · exact (fresh.reserved _ member).le
    · cases List.mem_singleton.mp member
      exact le_rfl
  · intro state pending isFlow isPending
    exact List.mem_append_left _ (invariant.pending state pending isFlow isPending)

theorem Invariant.announce (invariant : Invariant binding site) (sees : site.host.SeesFlow binding)
    {after : World Content} (announces : Announces binding site.host after) :
    Invariant binding { site with host := after } := by
  cases announces with
  | nothing => exact invariant
  | reserved newest reserves => exact invariant.reserveRegistry sees newest reserves
  | @published _ sequence data manifest files _ newest reserves isManifest remain =>
    have fresh := fresh_of_announce invariant sees newest reserves
    refine (invariant.reserveRegistry sees newest reserves).publish
      ⟨some (.imageUpdated sequence), manifest, files⟩ rfl
      (List.mem_append_right _ (List.mem_singleton_self _)) isManifest.symm ?_ remain
    intro file member
    show file.manifest.seq < _
    rw [isManifest]
    exact fresh.inbox file member

/-- Every step in view keeps the invariant. -/
theorem Invariant.step (invariant : Invariant binding site) {runtime : FlowRuntime Content}
    {call : Call Content} {after : Site Content} (inView : InView binding site call)
    (step : Step runtime binding call site after) : Invariant binding after := by
  cases step with
  | prepare reaches => exact invariant.prepare (reaches_prepareRefresh runtime _ _ _ reaches)
  | publish reaches =>
    exact invariant.publishRefresh inView (reaches_publishRefresh runtime _ _ reaches)
  | announce reaches =>
    exact invariant.announce inView (reaches_publishImageUpdated runtime _ _ reaches)
  | @apply _ bundle member =>
    refine { invariant with applied := ?_ }
    dsimp only
    obtain older | newer := le_total bundle.manifest.seq site.lastInboxSeq
    · rw [max_eq_left older]
      exact invariant.applied
    · rw [max_eq_right newer]
      exact .inr ⟨bundle, invariant.inbox member, rfl⟩
  | exports acknowledges =>
    refine { invariant with acknowledged := ?_ }
    rintro outbox (_ | ⟨_, member⟩) sequence isSequence
    · obtain rfl := Option.some.inj (acknowledges.symm.trans isSequence)
      exact invariant.applied
    · exact invariant.acknowledged outbox member sequence isSequence
  | prune remain newest =>
    refine { invariant with
      inbox := fun file member => invariant.inbox (remain member)
      newest := fun publication member => ?_ }
    obtain ⟨file, inInbox, atMost⟩ := invariant.newest publication member
    obtain ⟨newer, isKept, atMost'⟩ := newest file inInbox
    exact ⟨newer, isKept, atMost.trans atMost'⟩

/-! ### Runs in view -/

/-- A run whose reservations are all in view. -/
def RunsInView (runtime : FlowRuntime Content) (binding : DriveBinding) :
    Site Content → Site Content → Prop :=
  Relation.ReflTransGen fun before after =>
    ∃ call, InView binding before call ∧ Step runtime binding call before after

theorem invariant_of_runs {runtime : FlowRuntime Content} {start : Site Content}
    (created : Created start) (runs : RunsInView runtime binding start site) :
    Invariant binding site := by
  induction runs with
  | refl => exact invariant_created created
  | tail _ step inductionHypothesis =>
    obtain ⟨call, inView, step⟩ := step
    exact inductionHypothesis.step inView step

/-- Reservations are told apart by their sequences. -/
theorem Invariant.reservation_injective (invariant : Invariant binding site)
    {first second : Reservation} (firstMember : first ∈ site.host.reserved)
    (secondMember : second ∈ site.host.reserved) (same : first.sequence = second.sequence) :
    first = second :=
  List.inj_on_of_nodup_map (invariant.increasing.imp fun less => ne_of_lt less) firstMember
    secondMember same

theorem sequence_pos_of_validate {state : FlowState} (valid : state.validate binding = .ok ())
    {pending : PendingRefresh} (isPending : state.pending = some pending) : 0 < pending.sequence := by
  obtain ⟨-, valid⟩ := (check_bind_eq_ok _ _ _).mp valid
  obtain ⟨-, valid⟩ := (ensure_bind_eq_ok _ _ _ _).mp valid
  obtain ⟨-, valid⟩ := (check_bind_eq_ok _ _ _).mp valid
  obtain ⟨pendingValid, -⟩ := (ensure_bind_eq_ok _ _ _ _).mp valid
  rw [isPending] at pendingValid
  simp only [Option.all_some, Bool.and_eq_true, bne_iff_ne] at pendingValid
  exact Nat.pos_of_ne_zero pendingValid.1.1.1

/-- What an acknowledgement clears: the bundle published under its sequence is that of the pending
refresh, or a later one. -/
def ClearedByOwn (before after : World Content) (pending : PendingRefresh) : Prop :=
  ∃ state publication, after.flow = some state ∧ publication ∈ before.published ∧
    publication.manifest.seq = state.inboxAcknowledged ∧
    (publication.reservation = some (.refresh pending) ∨
      pending.sequence < publication.manifest.seq)

theorem clearedByOwn (invariant : Invariant binding site) {runtime : FlowRuntime Content}
    {target : String} {policy : FreshnessPolicy} {choices : RefreshChoices}
    {after : Site Content} (step : Step runtime binding (.prepare target policy choices) site after)
    {state state' : FlowState} {pending : PendingRefresh} (isFlow : site.host.flow = some state)
    (isPending : state.pending = some pending) (isAfter : after.host.flow = some state')
    (cleared : state'.pending ≠ some pending) : ClearedByOwn site.host after.host pending := by
  obtain ⟨reaches⟩ := step
  cases reaches_prepareRefresh runtime _ _ _ reaches with
  | nothing =>
    obtain rfl := Option.some.inj (isFlow.symm.trans isAfter)
    exact absurd isPending cleared
  | reconciled isLoaded authentic isReconciled =>
    obtain rfl := Option.some.inj isAfter
    obtain isLoaded' | ⟨none, -⟩ := isLoaded.1
    swap
    · rw [none] at isFlow
      cases isFlow
    obtain rfl := Option.some.inj (isLoaded'.symm.trans isFlow)
    obtain ⟨-, kept | ⟨held, isHeld, -, covered, outbox, isOutbox, acknowledges⟩⟩ :=
      reconcile_spec isReconciled
    · exact absurd (kept.trans isPending) cleared
    obtain rfl := Option.some.inj (isHeld.symm.trans isPending)
    have isReserved := invariant.pending _ _ isFlow isPending
    obtain zero | ⟨publication, isPublished, same⟩ :=
      invariant.acknowledged outbox (authentic.outbox outbox isOutbox) _ acknowledges
    · have positive := sequence_pos_of_validate isLoaded.2 isPending
      omega
    refine ⟨_, publication, rfl, isPublished, same, ?_⟩
    rw [← same] at covered
    obtain later | equal := lt_or_eq_of_le covered
    · exact .inr later
    refine .inl ?_
    cases isReservation : publication.reservation with
    | none =>
      exact absurd equal (invariant.creation publication isPublished isReservation _ isReserved).ne'
    | some reservation =>
      obtain ⟨isHeld, sameSeq⟩ := invariant.reservation publication isPublished _ isReservation
      rw [invariant.reservation_injective isHeld isReserved (sameSeq.trans equal.symm)]

/-- No two bundles are published under one sequence. -/
theorem published_unique (invariant : Invariant binding site) {first second : Publication Content}
    (firstMember : first ∈ site.host.published) (secondMember : second ∈ site.host.published)
    (same : first.manifest.seq = second.manifest.seq) : first = second :=
  List.inj_on_of_nodup_map (List.pairwise_map.mpr invariant.distinct) firstMember secondMember same

/-- In every run in which a publisher that reserves a number knows of the other's reservations, the
reserved numbers strictly increase, no two bundles are published under one number, and a
pending refresh is cleared only by the acknowledgement of its own bundle or of a later one. -/
theorem sequences_neverReused (runtime : FlowRuntime Content) {start : Site Content}
    (created : Created start) (runs : RunsInView runtime binding start site) :
    (site.host.reserved.map Reservation.sequence).Pairwise (· < ·) ∧
      (∀ first ∈ site.host.published, ∀ second ∈ site.host.published,
        first.manifest.seq = second.manifest.seq → first = second) ∧
      ∀ target policy choices after,
        Step runtime binding (.prepare target policy choices) site after →
        ∀ state state' pending, site.host.flow = some state → state.pending = some pending →
          after.host.flow = some state' → state'.pending ≠ some pending →
            ClearedByOwn site.host after.host pending := by
  have invariant := invariant_of_runs created runs
  refine ⟨invariant.increasing, fun first firstMember second secondMember same =>
    published_unique invariant firstMember secondMember same, ?_⟩
  intro target policy choices after step state state' pending isFlow isPending isAfter cleared
  exact clearedByOwn invariant step isFlow isPending isAfter cleared

/-! ### A drive with a login to bring -/

namespace Fresh

def drive : DriveBinding := ⟨"drive-a", 1⟩

def authPath : String := ".pi/agent/auth.json"

def auth : String := "\x7b\"anthropic\":\x7b\"type\":\"api_key\",\"key\":\"sk-ant-a\"\x7d\x7d\n"

def image : Host.InstalledImage where
  identity := ⟨"10000000-0000-4000-8000-000000000000", ⟨#["20000000-0000-4000-8000-000000000000",
    "30000000-0000-4000-8000-000000000000", "40000000-0000-4000-8000-000000000000",
    "50000000-0000-4000-8000-000000000000", "60000000-0000-4000-8000-000000000000"], rfl⟩⟩
  releaseOrder := (2, 2)
  tag := "live-v2.0.0"
  imageDigest := .replicate 32 0x72
  hardwareHint := "a7a7a7a7a7a7a7a7a7a7a7a7a7a7a7a7a7a7a7a7a7a7a7a7a7a7a7a7a7a7a7a7"

def marker : String :=
  "\x7b\"event\":\"image updated\",\"imageDigest\":\"" ++
    "7272727272727272727272727272727272727272727272727272727272727272" ++
    "\",\"release\":\"live-v2.0.0\",\"version\":1\x7d\n"

/-- The digests of the contents, the state and the entries below. -/
def runtime : FlowRuntime String where
  size := String.utf8ByteSize
  sha256Hex content :=
    if content = auth then "e4fc73ba8ab41e75381fdd6ae3b39b585abbf4a81886713c4bf91d66e9aa0043"
    else "8b1a802f46c07774d54abf09ecf15e9e50c987f1062f4eda5e094dd07008befc"
  timestamp date := if date = "2026-10-19T00:00:00Z" then some 1792368000 else none
  lowercase text := .ofList (text.toList.map Char.toLower)
  stateDigest _ := "23e72c1da75e9c2ad60099503044da6badfc6df693141865642a01947d8f8577"
  entriesDigest _ := "eee092809b22dad8b98f8337a6b9f3159814cb55b8b55aa998e74eeabe027d62"
  imageMarker _ := marker

def createdAt : String := "2026-10-19T00:00:00Z"

/-- What the source has. -/
def source : SourceSnapshot String where
  manifest := refreshManifest 1 createdAt
    [⟨authPath, .auth, "e4fc73ba8ab41e75381fdd6ae3b39b585abbf4a81886713c4bf91d66e9aa0043", 50⟩]
  files := [(authPath, auth)]

def record : Host.DriveRecord where
  driveId := "drive-a"
  generation := 1
  createdAt := 1792000000
  retention := .disabled
  lastRefresh := none
  createdHere := true
  item := none
  escrowState := .disabled
  forgetPending := false
  inboxIssued := 0
  inboxAcknowledged := 0
  outboxIssued := 0
  sourceReferences := []
  installedImage := none
  imageUpdateStatus := none

/-- The bundle of the drive's creation. -/
def creation : Publication String := ⟨none, refreshManifest 1 createdAt [], []⟩

def created : Site String where
  host :=
    { flow := none
      registry :=
        ⟨1, "5f5f5f5f5f5f5f5f5f5f5f5f5f5f5f5f5f5f5f5f5f5f5f5f5f5f5f5f5f5f5f5f", 1792000000,
          Std.TreeMap.empty.insert "drive-a" record⟩
      inbox := [creation]
      reserved := []
      published := [creation]
      exported := [] }
  lastInboxSeq := 0

theorem isCreated : Created created where
  flow := rfl
  reserved := rfl
  published := rfl
  creation := by
    rintro file (_ | ⟨_, ⟨⟩⟩)
    rfl
  distinct := List.pairwise_singleton _ _
  exported := rfl
  notApplied := rfl

def snapshotOf (world : World String) : ExchangeSnapshot String where
  binding := drive
  inbox := world.inbox.head?.map fun file => ⟨file.manifest, file.files, ""⟩
  outbox := none
  fingerprint := "e7"

/-- A bundle is published and the older ones are removed, unless publications fail. -/
def publishOr (publishes : Bool) (world : World String) (publication : Publication String) :
    Except String Unit × World String :=
  if publishes && world.inbox.all fun file => file.manifest.seq != publication.manifest.seq then
    (.ok (), world.publish publication [])
  else (.error "inbox publication failed; refresh status before retrying", world)

/-- Surroundings in which nothing fails but publications. -/
def respond (publishes : Bool) (Answer : Type) (action : FlowAct String Answer)
    (world : World String) : Answer × World String :=
  match action with
  | .snapshot => (.ok (snapshotOf world), world)
  | .lockExchange => (.ok (), world)
  | .lockedSnapshot => (.ok (snapshotOf world), world)
  | .readFlow => (.ok world.flow, world)
  | .replaceFlow state => (.ok (), world.replaceFlow state)
  | .reserveFlow state pending => (.ok (), world.reserveFlow state pending)
  | .exportSnapshot _ => (.ok source, world)
  | .publish manifest files => publishOr publishes world
      ⟨(world.flow.bind FlowState.pending).map .refresh, manifest, files⟩
  | .loadRegistry => (.ok world.registry, world)
  | .reserveRegistry data sequence => (.ok (), world.reserveRegistry data sequence)
  | .latestInbox =>
      (.ok (world.inbox.head?.map fun file => (file.manifest.seq, file.manifest)), world)
  | .publishMarker manifest files =>
      publishOr publishes world ⟨some (.imageUpdated manifest.seq), manifest, files⟩

/-- One bundle at most, that was published. -/
def OneBundle (world : World String) : Prop :=
  world.inbox.length ≤ 1 ∧ world.inbox ⊆ world.published

theorem authentic_snapshotOf {world : World String} (one : OneBundle world) :
    Authentic drive world (snapshotOf world) where
  binding := rfl
  inbox := by
    intro bundle isBundle
    obtain ⟨file, isHead, same⟩ := Option.map_eq_some_iff.mp isBundle
    exact ⟨file, one.2 (List.mem_of_head? isHead), congrArg AuthenticatedBundle.manifest same⟩
  outbox := fun _ absent => nomatch absent

theorem head?_of_mem {world : World String} (one : OneBundle world) {file : Publication String}
    (member : file ∈ world.inbox) : world.inbox.head? = some file := by
  obtain ⟨atMost, -⟩ := one
  cases isInbox : world.inbox with
  | nil =>
    rw [isInbox] at member
    cases member
  | cons head rest =>
    rw [isInbox] at member atMost
    obtain rfl : rest = [] := List.length_eq_zero_iff.mp (by simpa using atMost)
    rw [List.mem_singleton.mp member]
    rfl

theorem publishOr_allowed (publishes : Bool) {world : World String} (one : OneBundle world)
    (publication : Publication String) :
    Publishes world publication (publishOr publishes world publication).1
        (publishOr publishes world publication).2 ∧
      OneBundle (publishOr publishes world publication).2 := by
  unfold publishOr
  split
  next can =>
    have distinct := (Bool.and_eq_true_iff.mp can).2
    refine ⟨.inr ⟨[], List.nil_subset _, fun file member => ?_, rfl⟩, le_rfl, ?_⟩
    · simpa using List.all_eq_true.mp distinct file member
    · exact List.cons_subset_cons _ (List.nil_subset _)
  next => exact ⟨.inl ⟨rfl, fun ok => nomatch ok⟩, one⟩

theorem respond_allowed (publishes : Bool) (Answer : Type) (action : FlowAct String Answer)
    (world : World String) (one : OneBundle world) :
    answers drive Answer action world (respond publishes Answer action world).1
        (respond publishes Answer action world).2 ∧
      OneBundle (respond publishes Answer action world).2 := by
  have wrote : ∀ written : World String,
      Writes world written () (.ok () : Except String Unit) written := fun written =>
    .inl ⟨rfl, fun _ _ => rfl⟩
  cases action with
  | snapshot =>
    refine ⟨⟨rfl, fun _ same => ?_⟩, one⟩
    cases same
    exact authentic_snapshotOf one
  | lockExchange => exact ⟨rfl, one⟩
  | lockedSnapshot =>
    refine ⟨⟨rfl, fun _ same => ?_⟩, one⟩
    cases same
    refine ⟨authentic_snapshotOf one, fun file member => ?_⟩
    refine ⟨⟨file.manifest, file.files, ""⟩, ?_, le_rfl⟩
    rw [snapshotOf, head?_of_mem one member]
    rfl
  | readFlow => exact ⟨⟨rfl, fun _ same => (Except.ok.inj same).symm⟩, one⟩
  | replaceFlow state => exact ⟨wrote _, one⟩
  | reserveFlow state pending => exact ⟨wrote _, one⟩
  | exportSnapshot target => exact ⟨rfl, one⟩
  | publish manifest files => exact publishOr_allowed publishes one _
  | loadRegistry => exact ⟨⟨rfl, fun _ same => (Except.ok.inj same).symm⟩, one⟩
  | reserveRegistry data sequence => exact ⟨wrote _, one⟩
  | latestInbox =>
    refine ⟨⟨rfl, fun _ same file member => ?_⟩, one⟩
    cases same
    refine ⟨file.manifest.seq, file.manifest, ?_, le_rfl⟩
    rw [head?_of_mem one member]
    rfl
  | publishMarker manifest files => exact publishOr_allowed publishes one _

/-- The first refresh replaces the bundle of the creation. -/
def policy : FreshnessPolicy := ⟨1792368000, 3600, true⟩

def choices : RefreshChoices := ⟨[], true⟩

def prepareRun : Except String PreparedRefresh × World String :=
  (prepareRefresh runtime drive "local" policy choices).run (respond true) created.host

def prepared : PreparedRefresh :=
  match prepareRun.1 with
  | .ok prepared => prepared
  | .error _ => prepareWith runtime drive "local" policy choices (.new drive)
      (snapshotOf created.host) source.manifest ⟨[], [], []⟩

/-- The publication of the refresh succeeds or not. -/
def publishRun (publishes : Bool) : Except String RefreshResult × World String :=
  (publishRefresh runtime prepared drive createdAt).run (respond publishes) prepareRun.2

/-- An announcement follows a refresh that was not published. -/
def announceRun : Except String Nat × World String :=
  (publishImageUpdated runtime "drive-a" image createdAt).run (respond true) (publishRun false).2

theorem oneBundle_run {Result : Type} (publishes : Bool) (program : Flow String Result)
    {world : World String} (one : OneBundle world) :
    program.Reaches (answers drive) world (some (program.run (respond publishes) world).1)
      (program.run (respond publishes) world).2 :=
  program.reaches_run_of (respond_allowed publishes) world one

/-- The computer after such a run; the drive has applied nothing. -/
def siteOf (world : World String) : Site String := ⟨world, 0⟩

theorem step_prepare : Step runtime drive (.prepare "local" policy choices) created
    (siteOf prepareRun.2) :=
  .prepare (oneBundle_run true _ ⟨le_rfl, List.Subset.refl _⟩)

theorem oneBundle_prepareRun : OneBundle prepareRun.2 := by
  have same : prepareRun.2.inbox = [creation] ∧ prepareRun.2.published = [creation] := ⟨rfl, rfl⟩
  exact ⟨same.1 ▸ le_rfl, same.1 ▸ same.2 ▸ List.Subset.refl _⟩

theorem step_publish (publishes : Bool) : Step runtime drive (.publish prepared createdAt)
    (siteOf prepareRun.2) (siteOf (publishRun publishes).2) :=
  .publish (oneBundle_run publishes _ oneBundle_prepareRun)

end Fresh

open Fresh in
/-- A refresh is prepared and published. -/
theorem sequences_neverReused_published :
    ((siteOf (publishRun true).2).host.reserved.map Reservation.sequence).Pairwise (· < ·) ∧
      (∀ first ∈ (siteOf (publishRun true).2).host.published,
        ∀ second ∈ (siteOf (publishRun true).2).host.published,
          first.manifest.seq = second.manifest.seq → first = second) ∧
      (publishRun true).2.reserved.map Reservation.sequence = [2] := by
  have sees : InView drive (siteOf prepareRun.2) (.publish prepared createdAt) := by
    intro state held _ isRecord
    have isHeld : prepareRun.2.registry.drives["drive-a"]? = some record :=
      Std.TreeMap.getElem?_insert_self
    obtain rfl := Option.some.inj (isRecord.symm.trans isHeld)
    exact Nat.zero_le _
  have runs : RunsInView runtime drive created (siteOf (publishRun true).2) :=
    (Relation.ReflTransGen.single ⟨.prepare "local" policy choices, trivial, step_prepare⟩).tail
      ⟨_, sees, step_publish true⟩
  have holds := sequences_neverReused runtime isCreated runs
  exact ⟨holds.1, holds.2.1, by decide +kernel⟩

open Fresh in
/-- The publication of a refresh fails after its reservation of 2, and an announcement reserves and
publishes 2. -/
theorem sequences_reused :
    ¬∀ (binding : DriveBinding) (runtime : FlowRuntime String) (start site : Site String),
      Created start →
        Relation.ReflTransGen (fun before after => ∃ call, Step runtime binding call before after)
          start site →
            (site.host.reserved.map Reservation.sequence).Pairwise (· < ·) := by
  intro increasing
  have oneBundle : OneBundle (publishRun false).2 := by
    have same : (publishRun false).2.inbox = [creation] ∧
        (publishRun false).2.published = [creation] := ⟨rfl, rfl⟩
    exact ⟨same.1 ▸ le_rfl, same.1 ▸ same.2 ▸ List.Subset.refl _⟩
  have announces : Step runtime drive (.announce image createdAt) (siteOf (publishRun false).2)
      (siteOf announceRun.2) :=
    .announce (oneBundle_run true _ oneBundle)
  have runs := ((Relation.ReflTransGen.single
    (r := fun before after => ∃ call, Step runtime drive call before after)
      ⟨_, step_prepare⟩).tail ⟨_, step_publish false⟩).tail ⟨_, announces⟩
  have reserved : (siteOf announceRun.2).host.reserved.map Reservation.sequence = [2, 2] := by
    decide +kernel
  have strictly := increasing drive runtime created _ isCreated runs
  rw [reserved] at strictly
  exact Nat.lt_irrefl 2 (List.rel_of_pairwise_cons strictly (List.mem_singleton_self 2))

end AiSwitcher.Exchange
