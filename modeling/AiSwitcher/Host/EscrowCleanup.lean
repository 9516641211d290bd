/-
This file proves what a purge does once the credential store and the registry file work:
it ends well and deletes every item that is due. With the soundness of every run it
follows that no retained passphrase is ever orphaned.
-/

import AiSwitcher.Host.EscrowSafety

namespace AiSwitcher.Host

open Interrupted JavaScript

variable {digest : Digest} {world : World} {data : RegistryData} {id : String}
  {record : DriveRecord} {item : ItemRef}

/-! ### A world that works -/

/-- Every action on the store and the file succeeds; the clocks may tell anything. -/
def WorkingAnswers : (Answer : Type) → EscrowAction Answer → World → Answer → World → Prop
  | _, .readRegistry, world, answer, after => answer = .ok world.registry ∧ after = world
  | _, .replaceRegistry data, world, answer, after =>
      answer = .ok () ∧ after = world.replaced data
  | _, .randomId, world, answer, after =>
      (∃ id, answer = .ok id ∧ isHexText id = true) ∧ after = world
  | _, .put item secret, world, answer, after =>
      answer = .ok () ∧ after = world.hold item (some secret)
  | _, .retrieve item, world, answer, after =>
      answer = (world.items item).elim (.error .missing) .ok ∧ after = world
  | _, .delete item, world, answer, after => answer = .ok () ∧ after = world.hold item none
  | _, .wallSeconds, world, time, after => after = world.tell time
  | _, .monotonicSeconds, world, reading, after =>
      after = world.tell (world.clock.elapsedTime reading)

/-- Such a world with clocks that stand still. -/
def World.answer (wall mono : Nat) :
    (Answer : Type) → EscrowAction Answer → World → Answer × World
  | _, .readRegistry, world => (.ok world.registry, world)
  | _, .replaceRegistry data, world => (.ok (), world.replaced data)
  | _, .randomId, world =>
      (.ok "0000000000000000000000000000000000000000000000000000000000000000", world)
  | _, .put item secret, world => (.ok (), world.hold item (some secret))
  | _, .retrieve item, world => ((world.items item).elim (.error .missing) .ok, world)
  | _, .delete item, world => (.ok (), world.hold item none)
  | _, .wallSeconds, world => (wall, world.tell wall)
  | _, .monotonicSeconds, world => (mono, world.tell (world.clock.elapsedTime mono))

theorem World.answer_works (wall mono : Nat) (Answer : Type) (action : EscrowAction Answer)
    (world : World) : WorkingAnswers Answer action world (world.answer wall mono Answer action).1
      (world.answer wall mono Answer action).2 := by
  cases action with
  | randomId => exact ⟨⟨_, rfl, by decide +kernel⟩, rfl⟩
  | wallSeconds => rfl
  | monotonicSeconds => rfl
  | _ => exact ⟨rfl, rfl⟩

/-- What a working world answers is among the answers of any world. -/
theorem WorkingAnswers.allowed {Answer : Type} {action : EscrowAction Answer} {answer : Answer}
    {after : World} (works : WorkingAnswers Answer action world answer after) :
    EscrowAnswers Answer action world answer after := by
  cases action with
  | readRegistry => exact ⟨works.2, fun _ same => by rw [works.1] at same; cases same; rfl⟩
  | replaceRegistry => exact Or.inl works.2
  | randomId => exact works.2
  | put => exact Or.inl works.2
  | retrieve item =>
    refine ⟨works.2, fun secret same => ?_⟩
    rw [works.1] at same
    cases held : world.items item with
    | none => rw [held] at same; cases same
    | some secret => rw [held] at same; cases same; rfl
  | delete => exact Or.inl works.2
  | wallSeconds => exact works
  | monotonicSeconds => exact works

theorem World.answer_allowed (wall mono : Nat) (Answer : Type) (action : EscrowAction Answer)
    (world : World) : EscrowAnswers Answer action world (world.answer wall mono Answer action).1
      (world.answer wall mono Answer action).2 :=
  (World.answer_works wall mono Answer action world).allowed

/-! ### What a purge keeps valid -/

theorem validateRecord_change (valid : validateRecord digest data id record = .ok ())
    (item : Option ItemRef) (state : EscrowState)
    (retention : validateRetention digest data id { record with item, escrowState := state } =
      .ok ()) :
    validateRecord digest data id { record with item, escrowState := state } = .ok () := by
  unfold validateRecord at valid ⊢
  rw [check_bind_eq_ok, check_bind_eq_ok, check_bind_eq_ok] at valid ⊢
  exact ⟨valid.1, valid.2.1, valid.2.2.1, retention⟩

theorem validateRecord_later (later : RegistryData) (installation :
      later.installationId = data.installationId) (observed : data.lastObservedAt ≤ later.lastObservedAt)
    (valid : validateRecord digest data id record = .ok ()) :
    validateRecord digest later id record = .ok () := by
  unfold validateRecord at valid ⊢
  rw [check_bind_eq_ok, check_bind_eq_ok, check_bind_eq_ok, ensure_eq_ok] at valid ⊢
  refine ⟨valid.1, ?_, valid.2.2.1, ?_⟩
  · have fields := valid.2.1
    simp only [Bool.and_eq_true, decide_eq_true_eq] at fields ⊢
    obtain ⟨⟨⟨⟨⟨⟨before, created⟩, refreshed⟩, issued⟩, outbox⟩, acknowledged⟩, sources⟩ := fields
    refine ⟨⟨⟨⟨⟨⟨before, created.trans observed⟩, ?_⟩, issued⟩, outbox⟩, acknowledged⟩, sources⟩
    cases last : record.lastRefresh with
    | none => rfl
    | some time =>
      rw [last, Option.all_some, Bool.and_eq_true, decide_eq_true_eq, decide_eq_true_eq] at refreshed
      rw [Option.all_some, Bool.and_eq_true, decide_eq_true_eq, decide_eq_true_eq]
      exact ⟨refreshed.1, refreshed.2.trans observed⟩
  · have retention := valid.2.2.2
    unfold validateRetention at retention ⊢
    rw [installation]
    exact retention

/-- A valid record with an item is one with a deadline, and the item is the one made for it. -/
theorem retention_of_item (valid : validateRetention digest data id record = .ok ())
    (isItem : record.item = some item) :
    ∃ expiry, record.retention = .until expiry ∧ record.createdHere = true ∧
      record.createdAt < expiry ∧ item = .forDrive digest data.installationId id record.generation := by
  unfold validateRetention at valid
  rw [isItem] at valid
  cases retention : record.retention with
  | disabled => rw [retention] at valid; cases valid
  | «until» expiry =>
    rw [retention] at valid
    dsimp only at valid
    rw [check_bind_eq_ok, ensure_eq_ok, Bool.and_eq_true, Bool.and_eq_true, decide_eq_true_eq] at valid
    obtain ⟨⟨⟨createdHere, created⟩, -⟩, hasItem⟩ := valid
    refine ⟨expiry, rfl, createdHere, created, ?_⟩
    split_ifs at hasItem
    · cases hasItem
    · rw [ensure_eq_ok, beq_iff_eq] at hasItem
      exact Option.some.inj hasItem

theorem not_deleted_of_item (valid : validateRetention digest data id record = .ok ())
    (isItem : record.item = some item) : record.escrowState ≠ .deleted := by
  intro deleted
  unfold validateRetention at valid
  rw [deleted, isItem] at valid
  cases retention : record.retention <;> simp [retention, ensure, bind, Except.bind] at valid
  split_ifs at valid

theorem createdAt_lt_of_until {expiry : Nat}
    (valid : validateRetention digest data id record = .ok ())
    (retention : record.retention = .until expiry) : record.createdAt < expiry := by
  unfold validateRetention at valid
  rw [retention] at valid
  dsimp only at valid
  rw [check_bind_eq_ok, ensure_eq_ok, Bool.and_eq_true, Bool.and_eq_true, decide_eq_true_eq] at valid
  exact valid.1.1.2

theorem exists_item_of_pending (valid : validateRetention digest data id record = .ok ())
    (pending : record.escrowState = .deletionPending) : ∃ item, record.item = some item := by
  unfold validateRetention at valid
  rw [pending] at valid
  cases retention : record.retention with
  | disabled => simp [retention, ensure] at valid
  | «until» expiry =>
    rw [retention] at valid
    dsimp only at valid
    rw [check_bind_eq_ok, if_neg (by decide), ensure_eq_ok, ensure_eq_ok, beq_iff_eq] at valid
    exact ⟨_, valid.2⟩

theorem validateRecord_pending (valid : validateRecord digest data id record = .ok ())
    (isItem : record.item = some item) :
    validateRecord digest data id (record.withState .deletionPending) = .ok () := by
  refine validateRecord_change valid record.item .deletionPending ?_
  unfold validateRecord at valid
  rw [check_bind_eq_ok, check_bind_eq_ok, check_bind_eq_ok] at valid
  obtain ⟨expiry, retention, createdHere, created, made⟩ := retention_of_item valid.2.2.2 isItem
  unfold validateRetention
  dsimp only
  rw [retention, isItem, createdHere, made]
  simp [ensure, created, bind, Except.bind]

theorem validateRecord_deleted (valid : validateRecord digest data id record = .ok ())
    (isItem : record.item = some item) :
    validateRecord digest data id record.deleted = .ok () := by
  refine validateRecord_change valid none .deleted ?_
  unfold validateRecord at valid
  rw [check_bind_eq_ok, check_bind_eq_ok, check_bind_eq_ok] at valid
  obtain ⟨expiry, retention, createdHere, created, -⟩ := retention_of_item valid.2.2.2 isItem
  unfold validateRetention
  dsimp only
  rw [retention, createdHere]
  simp [ensure, created, bind, Except.bind]

theorem validate_observed (valid : data.validate digest = .ok ()) (clock : RetentionClock)
    (wall mono : Nat) : (clock.observed data wall mono).data.validate digest = .ok () := by
  have observed : data.lastObservedAt ≤ (clock.observed data wall mono).data.lastObservedAt :=
    le_max_right _ _
  have installation : (clock.observed data wall mono).data.installationId = data.installationId := rfl
  rw [RegistryData.validate_eq_ok] at valid ⊢
  exact ⟨valid.1, fun id record has =>
    validateRecord_later _ installation observed (valid.2 id record has)⟩

theorem validate_markExpired (valid : data.validate digest = .ok ()) (now : Nat) :
    (data.markExpired now).validate digest = .ok () := by
  rw [RegistryData.validate_eq_ok] at valid ⊢
  refine ⟨⟨valid.1.1, valid.1.2.1, ?_⟩, fun id record has => ?_⟩
  · rw [RegistryData.markExpired, Std.TreeMap.size_map]
    exact valid.1.2.2
  · rw [RegistryData.get_markExpired] at has
    obtain ⟨earlier, had, rfl⟩ := Option.map_eq_some_iff.mp has
    have accepted := validateRecord_later (data.markExpired now) rfl le_rfl
      (valid.2 id earlier had)
    unfold markPending
    split_ifs with due
    · rw [Bool.and_eq_true, Option.isSome_iff_exists] at due
      obtain ⟨⟨item, isItem⟩, -⟩ := due
      exact validateRecord_pending accepted isItem
    · exact accepted

theorem validate_finishDeletion (valid : data.validate digest = .ok ())
    (has : data.drives[id]? = some record) (isItem : record.item = some item) :
    (data.finishDeletion id record).validate digest = .ok () := by
  have inMap : data.drives.contains id = true := by
    rw [Std.TreeMap.contains_iff_mem, Std.TreeMap.mem_iff_isSome_getElem?, has]
    rfl
  rw [RegistryData.validate_eq_ok] at valid
  have inserted : (data.insert id record.deleted).drives.size = data.drives.size := by
    rw [RegistryData.insert, Std.TreeMap.size_insert, if_pos inMap]
  have size : (data.finishDeletion id record).drives.size ≤ 1024 := by
    unfold RegistryData.finishDeletion
    split_ifs
    · exact (Std.TreeMap.size_erase_le.trans inserted.le).trans valid.1.2.2
    · exact inserted.le.trans valid.1.2.2
  have same : (data.finishDeletion id record).installationId = data.installationId ∧
      (data.finishDeletion id record).lastObservedAt = data.lastObservedAt ∧
      (data.finishDeletion id record).version = data.version := by
    unfold RegistryData.finishDeletion
    split_ifs <;> exact ⟨rfl, rfl, rfl⟩
  rw [RegistryData.validate_eq_ok, same.1, same.2.2]
  refine ⟨⟨valid.1.1, valid.1.2.1, size⟩, fun other found had => ?_⟩
  refine validateRecord_later _ same.1 same.2.1.ge ?_
  rw [RegistryData.get_finishDeletion] at had
  split_ifs at had with isOther
  · cases had
    exact isOther ▸ validateRecord_deleted (valid.2 id record has) isItem
  · exact valid.2 other found had

/-! ### What a purge deletes -/

/-- The item of the record is to be deleted. -/
def Due (record : DriveRecord) (now : Nat) : Prop :=
  record.retention.hasExpired now = true ∨ record.escrowState = .pendingWrite ∨
    record.escrowState = .deletionPending ∨ record.forgetPending = true

/-- The outcome of a purge in a world that works: it ended well, nothing else was stored, and the
items of the list are gone. -/
def Swept {Result : Type} (before : World) (observed : Nat) (gone : ItemRef → Prop)
    (outcome : Except EscrowError Result) (after : World) : Prop :=
  (∃ result, outcome = .ok result) ∧
    (∃ swept, after.registry = some swept ∧ swept.lastObservedAt = observed) ∧
    (∀ item, before.items item = none → after.items item = none) ∧
    ∀ item, gone item → after.items item = none

theorem lastObservedAt_finishDeletion (data : RegistryData) (id : String) (record : DriveRecord) :
    (data.finishDeletion id record).lastObservedAt = data.lastObservedAt := by
  unfold RegistryData.finishDeletion
  split_ifs <;> rfl

/-- The drives of a list have the items of the list, and these are to be deleted. -/
def HasPending (data : RegistryData) (pending : List (String × Option ItemRef)) : Prop :=
  ∀ entry ∈ pending, ∃ (record : DriveRecord) (item : ItemRef),
    data.drives[entry.1]? = some record ∧ record.item = entry.2 ∧ entry.2 = some item

theorem save_works {Result : Type} {next : Unit → EscrowProgram Result}
    {post : Except EscrowError Result → World → Prop} (valid : data.validate digest = .ok ())
    (rest : (next ()).safe WorkingAnswers (fun _ _ => True) post (world.replaced data)) :
    (save digest data >>= next).safe WorkingAnswers (fun _ _ => True) post world := by
  unfold save
  rw [valid]
  rintro answer after ⟨rfl, rfl⟩
  exact ⟨trivial, rest⟩

theorem purgePending_sweeps (pending : List (String × Option ItemRef)) :
    ∀ {data : RegistryData} {world : World} (result : PurgeResult),
      data.validate digest = .ok () → world.registry = some data → HasPending data pending →
      (pending.map Prod.fst).Nodup →
      (purgePending digest pending data result).safe WorkingAnswers (fun _ _ => True)
        (Swept world data.lastObservedAt fun item => ∃ id, (id, some item) ∈ pending) world := by
  induction pending with
  | nil =>
    intro data world result valid loaded _ _
    refine ⟨⟨_, rfl⟩, ⟨data, loaded, rfl⟩, fun _ gone => gone, ?_⟩
    rintro item ⟨id, member⟩
    cases member
  | cons entry rest inductionHypothesis =>
    intro data world result valid loaded hasPending distinct
    obtain ⟨id, pendingItem⟩ := entry
    rw [List.map_cons, List.nodup_cons] at distinct
    obtain ⟨record, item, has, isItem, isSome⟩ := hasPending _ List.mem_cons_self
    dsimp only at has isItem isSome
    subst isSome
    refine Program.safe_ofExcept_bind (fun found same => ?_) fun _ failed => nomatch failed
    cases same
    rintro answer after ⟨rfl, rfl⟩
    refine ⟨trivial, ?_⟩
    refine Program.safe_ofExcept_bind (fun found same => ?_) fun _ failed => ?_
    · rw [required_eq_ok, has] at same
      cases same
      have finished := validate_finishDeletion valid has isItem
      have pendingLater : HasPending (data.finishDeletion id record) rest := by
        intro other member
        obtain ⟨found, wanted, had, isWanted, isSome⟩ :=
          hasPending other (List.mem_cons_of_mem _ member)
        refine ⟨found, wanted, ?_, isWanted, isSome⟩
        rw [RegistryData.get_finishDeletion, if_neg, had]
        rintro rfl
        exact distinct.1 (List.mem_map.mpr ⟨other, member, rfl⟩)
      refine save_works finished (Program.safe_mono ?_ _ _
        (inductionHypothesis _ finished rfl pendingLater distinct.2))
      rintro outcome last ⟨ended, ⟨swept, isSwept, observed⟩, kept, gone⟩
      refine ⟨ended, ⟨swept, isSwept, observed.trans (lastObservedAt_finishDeletion _ _ _)⟩,
        fun other absent => kept other ?_, ?_⟩
      · show Function.update world.items item none other = none
        by_cases same : other = item
        · rw [same, Function.update_self]
        · rw [Function.update_of_ne same, absent]
      · rintro other ⟨drive, member⟩
        rcases List.mem_cons.mp member with same | member
        · cases same
          exact kept _ (Function.update_self _ _ _)
        · exact gone other ⟨drive, member⟩
    · rw [has] at failed
      cases failed

/-- What a record becomes when it is due. -/
theorem escrowState_markPending {now : Nat} (isItem : record.item = some item)
    (due : Due record now) : (markPending now record).escrowState = .deletionPending := by
  unfold markPending
  split_ifs with marked
  · rfl
  · rcases due with due | due | due | due
    all_goals first | exact due | exact absurd (by simp [isItem, due]) marked

/-- A purge has ended well, and the items that were due at the time it recorded are gone. -/
def Purged (before : World) {Result : Type} (outcome : Except EscrowError Result) (after : World) :
    Prop :=
  (∃ result, outcome = .ok result) ∧ ∃ swept, after.registry = some swept ∧
    ∀ (data : RegistryData) (id : String) (record : DriveRecord) (item : ItemRef),
      before.registry = some data → data.drives[id]? = some record → record.item = some item →
      Due record swept.lastObservedAt → after.items item = none

theorem purgeLoaded_sweeps {before : World} (valid : data.validate digest = .ok ())
    (same : ∀ old, before.registry = some old → old = data) (clock : RetentionClock) :
    (purgeLoaded digest clock data).safe WorkingAnswers (fun _ _ => True) (Purged before) world := by
  rintro wall told rfl
  refine ⟨trivial, ?_⟩
  rintro mono told rfl
  refine ⟨trivial, ?_⟩
  have marked := validate_markExpired (validate_observed valid clock wall mono)
    (clock.observed data wall mono).now
  have hasPending : HasPending _ (RegistryData.pending _) := fun entry member => by
    obtain ⟨record, has, isItem, pending⟩ := mem_pending marked member
    obtain ⟨item, isSome⟩ := exists_item_of_pending (RegistryData.validRecord marked has).retention
      pending
    exact ⟨record, item, has, isItem, isItem.symm.trans isSome⟩
  refine save_works marked (Program.safe_bind _ _ (Program.safe_mono ?_ _ _
    (purgePending_sweeps _ _ marked rfl hasPending (nodup_pending marked))))
  rintro outcome last ⟨⟨⟨data', result⟩, rfl⟩, ⟨swept, isSwept, observed⟩, -, gone⟩
  refine ⟨⟨_, rfl⟩, swept, isSwept, fun old id record item had has isItem due => ?_⟩
  obtain rfl := same old had
  rw [observed] at due
  refine gone item ⟨id, ?_⟩
  have marking : (markPending (clock.observed old wall mono).now record).item = some item := by
    unfold markPending
    split_ifs <;> exact isItem
  have listed : ((clock.observed old wall mono).data.markExpired
      (clock.observed old wall mono).now).drives[id]? =
        some (markPending (clock.observed old wall mono).now record) := by
    rw [RegistryData.get_markExpired]
    exact congrArg (Option.map _) has
  refine List.mem_map.mpr ⟨(id, _), List.mem_filter.mpr
    ⟨Std.TreeMap.mem_toList_iff_getElem?_eq_some.mpr listed,
      beq_iff_eq.mpr (escrowState_markPending isItem due)⟩, ?_⟩
  show (DriveRecord.driveId _, DriveRecord.item _) = _
  rw [marking, (RegistryData.validRecord marked listed).driveId]

theorem validate_new {installationId : String} (random : isHexText installationId = true) :
    (RegistryData.new installationId).validate digest = .ok () := by
  rw [RegistryData.validate_eq_ok]
  refine ⟨⟨rfl, random, Nat.zero_le _⟩, fun id record has => ?_⟩
  cases has

theorem load_works (sound : Sound digest world) :
    (load digest).safe WorkingAnswers (fun _ _ => True)
      (fun outcome _ => ∃ data, outcome = .ok data ∧ data.validate digest = .ok () ∧
        ∀ old, world.registry = some old → old = data) world := by
  rintro answer after ⟨rfl, rfl⟩
  refine ⟨trivial, ?_⟩
  cases registry : after.registry with
  | some data =>
    show Program.safe _ _ _ (Program.ofExcept (data.validate digest) >>= fun _ => pure data) _
    rw [sound.valid data registry]
    exact ⟨data, rfl, sound.valid data registry, fun old isOld => (Option.some.inj isOld).symm⟩
  | none =>
    rintro answer same ⟨⟨id, rfl, random⟩, rfl⟩
    refine ⟨trivial, save_works (validate_new random) ?_⟩
    exact ⟨_, rfl, validate_new random, fun old isOld => nomatch isOld⟩

/-- One purge in a world that works. -/
theorem purgeExpired_sweeps (sound : Sound digest world) (clock : RetentionClock) :
    (purgeExpired digest clock).safe WorkingAnswers (fun _ _ => True) (Purged world) world := by
  refine Program.safe_bind _ _ (Program.safe_mono ?_ _ _ (load_works sound))
  rintro _ after ⟨data, rfl, valid, same⟩
  show Program.safe _ _ _ (Program.ofExcept (data.validate digest) >>= _) _
  rw [valid]
  exact purgeLoaded_sweeps valid same clock

/-! ### Every run -/

namespace LockedStore

def shortDigest : Digest := ⟨List.take 4⟩

def startClock : RetentionClock := ⟨10, 0⟩

/-- The store keeps what is put into it, reports an error, and deletes nothing. -/
def answer : (Answer : Type) → EscrowAction Answer → World → Answer × World
  | _, .put item secret, world => (.error .locked, world.hold item (some secret))
  | _, .delete _, world => (.error .locked, world)
  | _, action, world => world.answer 10 0 _ action

theorem answer_allowed (Answer : Type) (action : EscrowAction Answer) (world : World) :
    EscrowAnswers Answer action world (answer Answer action world).1 (answer Answer action world).2 := by
  cases action with
  | put item secret => exact Or.inl rfl
  | delete item => exact Or.inr ⟨rfl, _, rfl⟩
  | _ => exact World.answer_allowed 10 0 _ _ world

def call : EscrowCall := .createDrive "drive" (.until 100) [] (some "secret")

def after : World := ((call.program shortDigest startClock).run answer (World.fresh startClock)).2

def storedItem : ItemRef := .forDrive shortDigest
  "0000000000000000000000000000000000000000000000000000000000000000" "drive" 1

end LockedStore

end AiSwitcher.Host
