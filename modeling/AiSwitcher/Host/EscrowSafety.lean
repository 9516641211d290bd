/-
This file proves that no retained passphrase is orphaned: whatever the credential store
and the registry file do, and wherever a call is cut off, every item that the store may
hold is the item of a record in the registry file, so that a later purge finds it.
-/

import AiSwitcher.Host.Escrow
import AiSwitcher.Library.Control

namespace AiSwitcher.Host

open Interrupted JavaScript

/-! ### The world -/

/-- The registry file, the items that the credential store may hold, the clocks of the process at
its start, and the times that were read off the clocks, the latest first. -/
structure World where
  registry : Option RegistryData
  items : ItemRef → Option String
  clock : RetentionClock
  told : List Nat

namespace World

def replaced (world : World) (data : RegistryData) : World :=
  { world with registry := some data }

def hold (world : World) (item : ItemRef) (secret : Option String) : World :=
  { world with items := Function.update world.items item secret }

def tell (world : World) (time : Nat) : World :=
  { world with told := time :: world.told }

end World

/-- A change that is reported as made has been made; one reported as failed may have been. -/
def Attempted (before made : World) (answer : Except EscrowError Unit) (after : World) : Prop :=
  after = made ∨ (after = before ∧ ∃ error, answer = .error error)

/-- Every action may fail, and the clocks may tell anything. -/
def EscrowAnswers : (Answer : Type) → EscrowAction Answer → World → Answer → World → Prop
  | _, .readRegistry, world, answer, after =>
      after = world ∧ ∀ registry, answer = .ok registry → registry = world.registry
  | _, .replaceRegistry data, world, answer, after =>
      Attempted world (world.replaced data) answer after
  | _, .randomId, world, _, after => after = world
  | _, .put item secret, world, answer, after =>
      Attempted world (world.hold item (some secret)) answer after
  | _, .retrieve item, world, answer, after =>
      after = world ∧ ∀ secret, answer = .ok secret → world.items item = some secret
  | _, .delete item, world, answer, after => Attempted world (world.hold item none) answer after
  | _, .wallSeconds, world, time, after => after = world.tell time
  | _, .monotonicSeconds, world, reading, after =>
      after = world.tell (world.clock.elapsedTime reading)

/-! ### Records of a registry -/

namespace RegistryData

variable (data : RegistryData) (id other : String) (record : DriveRecord)

theorem get_insert : (data.insert id record).drives[other]? =
    if id = other then some record else data.drives[other]? := by
  rw [insert, Std.TreeMap.getElem?_insert]
  simp only [Std.LawfulEqCmp.compare_eq_iff_eq]

theorem get_insert_self : (data.insert id record).drives[id]? = some record := by
  rw [get_insert, if_pos rfl]

theorem get_remove : (data.remove id).drives[other]? =
    if id = other then none else data.drives[other]? := by
  rw [remove, Std.TreeMap.getElem?_erase]
  simp only [Std.LawfulEqCmp.compare_eq_iff_eq]

theorem get_markExpired (now : Nat) :
    (data.markExpired now).drives[id]? = data.drives[id]?.map (markPending now) := by
  rw [markExpired, Std.TreeMap.getElem?_map]

theorem get_finishDeletion : (data.finishDeletion id record).drives[other]? =
    if id = other then (if record.forgetPending then none else some record.deleted)
    else data.drives[other]? := by
  unfold finishDeletion
  by_cases forgets : record.forgetPending = true
  · rw [if_pos forgets, get_remove, get_insert, if_pos forgets]
    split_ifs <;> rfl
  · rw [if_neg forgets, get_insert, if_neg forgets]

end RegistryData

/-! ### Valid records -/

theorem ensure_eq_ok (condition : Bool) (error : EscrowError) :
    ensure condition error = .ok () ↔ condition = true := by
  cases condition <;> simp [ensure]

theorem RegistryData.validate_eq_ok (digest : Digest) (data : RegistryData) :
    data.validate digest = .ok () ↔
      (data.version = 1 ∧ isHexText data.installationId = true ∧ data.drives.size ≤ 1024) ∧
        ∀ id record, data.drives[id]? = some record → validateRecord digest data id record = .ok () := by
  unfold validate
  rw [check_bind_eq_ok, ensure_eq_ok, forM_eq_ok]
  simp only [Bool.and_eq_true, beq_iff_eq, decide_eq_true_eq, and_assoc, Prod.forall,
    Std.TreeMap.mem_toList_iff_getElem?_eq_some]

theorem required_eq_ok {Value : Type} {found : Option Value} {error : EscrowError} {value : Value} :
    required found error = .ok value ↔ found = some value := by
  cases found <;> simp [required]

/-- What a valid record says of itself and of its item. -/
structure ValidRecord (digest : Digest) (data : RegistryData) (id : String) (record : DriveRecord) :
    Prop where
  driveId : record.driveId = id
  createdAt : record.createdAt ≤ data.lastObservedAt
  retention : validateRetention digest data id record = .ok ()

theorem RegistryData.validRecord {digest : Digest} {data : RegistryData}
    (valid : data.validate digest = .ok ()) {id : String} {record : DriveRecord}
    (has : data.drives[id]? = some record) : ValidRecord digest data id record := by
  have accepted := ((data.validate_eq_ok digest).mp valid).2 id record has
  unfold validateRecord at accepted
  rw [check_bind_eq_ok, check_bind_eq_ok, check_bind_eq_ok, ensure_eq_ok] at accepted
  simp only [Bool.and_eq_true, beq_iff_eq, decide_eq_true_eq] at accepted
  obtain ⟨-, ⟨⟨⟨⟨⟨⟨⟨⟨⟨-, -⟩, named⟩, -⟩, created⟩, -⟩, -⟩, -⟩, -⟩, -⟩, -, retention⟩ := accepted
  exact ⟨named.symm, created, retention⟩

/-! ### Succession of registries -/

/-- What a later registry keeps of an earlier one: time does not go back, and a record is the one
there was, with its creation and its policy, or was created since. -/
structure Succeeds (before after : RegistryData) : Prop where
  observed : before.lastObservedAt ≤ after.lastObservedAt
  records : ∀ (id : String) (record : DriveRecord), after.drives[id]? = some record →
    (∃ earlier : DriveRecord, before.drives[id]? = some earlier ∧
      record.createdAt = earlier.createdAt ∧ record.retention = earlier.retention) ∨
      before.lastObservedAt ≤ record.createdAt

namespace Succeeds

theorem refl (data : RegistryData) : Succeeds data data :=
  ⟨le_refl _, fun _ record has => Or.inl ⟨record, has, rfl, rfl⟩⟩

theorem trans {first second third : RegistryData} (earlier : Succeeds first second)
    (later : Succeeds second third) : Succeeds first third := by
  refine ⟨earlier.observed.trans later.observed, fun id record has => ?_⟩
  rcases later.records id record has with ⟨between, hadBetween, created, retention⟩ | created
  · rw [created, retention]
    exact earlier.records id between hadBetween
  · exact Or.inr (earlier.observed.trans created)

theorem insert (data : RegistryData) (id : String) (record : DriveRecord)
    (fits : (∃ earlier : DriveRecord, data.drives[id]? = some earlier ∧ record.createdAt = earlier.createdAt ∧
      record.retention = earlier.retention) ∨ data.lastObservedAt ≤ record.createdAt) :
    Succeeds data (data.insert id record) := by
  refine ⟨le_refl _, fun other found has => ?_⟩
  rw [RegistryData.get_insert] at has
  by_cases same : id = other
  · rw [if_pos same] at has
    cases has
    exact same ▸ fits
  · rw [if_neg same] at has
    exact Or.inl ⟨found, has, rfl, rfl⟩

theorem remove (data : RegistryData) (id : String) : Succeeds data (data.remove id) := by
  refine ⟨le_refl _, fun other found has => ?_⟩
  rw [RegistryData.get_remove] at has
  by_cases same : id = other
  · rw [if_pos same] at has
    cases has
  · rw [if_neg same] at has
    exact Or.inl ⟨found, has, rfl, rfl⟩

theorem observed_clock (data : RegistryData) (clock : RetentionClock) (wall mono : Nat) :
    Succeeds data (clock.observed data wall mono).data :=
  ⟨le_max_right _ _, fun _ record has => Or.inl ⟨record, has, rfl, rfl⟩⟩

theorem markExpired (data : RegistryData) (now : Nat) : Succeeds data (data.markExpired now) := by
  refine ⟨le_refl _, fun id record has => ?_⟩
  rw [RegistryData.get_markExpired] at has
  obtain ⟨earlier, had, rfl⟩ := Option.map_eq_some_iff.mp has
  refine Or.inl ⟨earlier, had, ?_, ?_⟩ <;> (unfold markPending; split_ifs <;> rfl)

theorem finishDeletion (data : RegistryData) {id : String} {record : DriveRecord}
    (has : data.drives[id]? = some record) : Succeeds data (data.finishDeletion id record) := by
  have inserted := Succeeds.insert data id record.deleted (Or.inl ⟨record, has, rfl, rfl⟩)
  unfold RegistryData.finishDeletion
  split_ifs
  · exact inserted.trans (remove _ id)
  · exact inserted

end Succeeds

/-! ### Items that are referenced -/

def References (data : RegistryData) (item : ItemRef) : Prop :=
  ∃ (id : String) (record : DriveRecord), data.drives[id]? = some record ∧ record.item = some item

/-- Every item that may be held is the item of a record. -/
def Covers (data : RegistryData) (items : ItemRef → Option String) : Prop :=
  ∀ item, (items item).isSome → References data item

namespace Covers

variable {data : RegistryData} {items : ItemRef → Option String}

theorem insert (covers : Covers data items) {id : String} {record : DriveRecord}
    (fits : ∀ earlier item, data.drives[id]? = some earlier → earlier.item = some item →
      (items item).isSome → record.item = some item) : Covers (data.insert id record) items := by
  intro item held
  obtain ⟨other, found, has, isItem⟩ := covers item held
  by_cases same : id = other
  · subst same
    refine ⟨id, record, ?_, fits found item has isItem held⟩
    rw [RegistryData.get_insert, if_pos rfl]
  · refine ⟨other, found, ?_, isItem⟩
    rw [RegistryData.get_insert, if_neg same, has]

theorem remove (covers : Covers data items) {id : String}
    (itemless : ∀ earlier, data.drives[id]? = some earlier → earlier.item = none) :
    Covers (data.remove id) items := by
  intro item held
  obtain ⟨other, found, has, isItem⟩ := covers item held
  refine ⟨other, found, ?_, isItem⟩
  rw [RegistryData.get_remove, if_neg, has]
  rintro rfl
  rw [itemless found has] at isItem
  cases isItem

theorem markExpired (covers : Covers data items) (now : Nat) :
    Covers (data.markExpired now) items := by
  intro item held
  obtain ⟨id, record, has, isItem⟩ := covers item held
  refine ⟨id, markPending now record, ?_, ?_⟩
  · rw [RegistryData.get_markExpired, has, Option.map_some]
  · unfold markPending
    split_ifs <;> exact isItem

theorem drop (covers : Covers data items) (item : ItemRef) :
    Covers data (Function.update items item none) := by
  intro other held
  by_cases same : other = item
  · rw [same, Function.update_self] at held
    cases held
  · rw [Function.update_of_ne same] at held
    exact covers other held

theorem hold (covers : Covers data items) {item : ItemRef} (references : References data item)
    (secret : String) : Covers data (Function.update items item (some secret)) := by
  intro other held
  by_cases same : other = item
  · exact same ▸ references
  · rw [Function.update_of_ne same] at held
    exact covers other held

/-- Once its item has been deleted, a record no longer needs it. -/
theorem insert_deleted (covers : Covers data items) {id : String} {record : DriveRecord}
    {item : ItemRef} (has : data.drives[id]? = some record) (isItem : record.item = some item)
    (changed : DriveRecord) :
    Covers (data.insert id changed) (Function.update items item none) := by
  refine (covers.drop item).insert fun earlier other had wasItem held => ?_
  rw [has] at had
  cases had
  rw [isItem] at wasItem
  cases wasItem
  rw [Function.update_self] at held
  cases held

theorem finishDeletion (covers : Covers data items) {id : String} {record : DriveRecord}
    {item : ItemRef} (has : data.drives[id]? = some record) (isItem : record.item = some item) :
    Covers (data.finishDeletion id record) (Function.update items item none) := by
  have inserted := covers.insert_deleted has isItem record.deleted
  unfold RegistryData.finishDeletion
  split_ifs
  · refine inserted.remove fun earlier had => ?_
    rw [RegistryData.get_insert, if_pos rfl] at had
    cases had
    rfl
  · exact inserted

end Covers

/-! ### Soundness -/

variable (digest : Digest)

/-- The registry file is valid and covers the items that may be held. -/
structure Sound (world : World) : Prop where
  valid : ∀ data, world.registry = some data → data.validate digest = .ok ()
  covers : ∀ item, (world.items item).isSome →
    ∃ data, world.registry = some data ∧ References data item

/-- What every action keeps. -/
structure Keeps (before after : World) : Prop where
  sound : Sound digest after
  succeeds : ∀ old, before.registry = some old →
    ∃ new, after.registry = some new ∧ Succeeds old new

/-- A registry in memory that may replace the file. -/
structure Saveable (world : World) (data : RegistryData) : Prop where
  covers : Covers data world.items
  succeeds : ∀ old, world.registry = some old → Succeeds old data

variable {digest} {world : World} {data next : RegistryData}

theorem Saveable.of_loaded (sound : Sound digest world) (loaded : world.registry = some data) :
    Saveable world data := by
  refine ⟨fun item held => ?_, fun old isOld => ?_⟩
  · obtain ⟨covering, isCovering, references⟩ := sound.covers item held
    rw [loaded] at isCovering
    cases isCovering
    exact references
  · rw [loaded] at isOld
    cases isOld
    exact .refl data

theorem Saveable.trans (saveable : Saveable world data) (succeeds : Succeeds data next)
    (covers : Covers next world.items) : Saveable world next :=
  ⟨covers, fun old isOld => (saveable.succeeds old isOld).trans succeeds⟩

theorem Saveable.observed (saveable : Saveable world data) (clock : RetentionClock)
    (wall mono : Nat) : Saveable world (clock.observed data wall mono).data :=
  saveable.trans (.observed_clock data clock wall mono) saveable.covers

/-- After a save that may have failed. -/
theorem Saveable.after_save (saveable : Saveable world data) (succeeds : Succeeds data next)
    {after : World} (saved : after.registry = world.registry ∨ after.registry = some data)
    (covers : Covers next after.items) : Saveable after next := by
  refine ⟨covers, fun old isOld => ?_⟩
  rcases saved with same | same
  · exact (saveable.succeeds old (same.symm.trans isOld)).trans succeeds
  · rw [same] at isOld
    cases isOld
    exact succeeds

theorem Saveable.replaced (saveable : Saveable world data)
    (valid : data.validate digest = .ok ()) : Keeps digest world (world.replaced data) := by
  refine ⟨⟨fun new isNew => ?_, fun item held => ?_⟩, fun old isOld => ?_⟩
  · cases isNew
    exact valid
  · exact ⟨data, rfl, saveable.covers item held⟩
  · exact ⟨data, rfl, saveable.succeeds old isOld⟩

namespace Sound

theorem keeps (sound : Sound digest world) {before : World} (same : world.registry = before.registry) :
    Keeps digest before world :=
  ⟨sound, fun old isOld => ⟨old, same.trans isOld, .refl old⟩⟩

theorem tell (sound : Sound digest world) (time : Nat) : Sound digest (world.tell time) :=
  ⟨sound.valid, sound.covers⟩

theorem drop (sound : Sound digest world) (item : ItemRef) : Sound digest (world.hold item none) := by
  refine ⟨sound.valid, fun other held => sound.covers other ?_⟩
  replace held : (Function.update world.items item none other).isSome := held
  by_cases same : other = item
  · rw [same, Function.update_self] at held
    cases held
  · rwa [Function.update_of_ne same] at held

theorem hold (sound : Sound digest world) (loaded : world.registry = some data) {item : ItemRef}
    (references : References data item) (secret : String) :
    Sound digest (world.hold item (some secret)) := by
  refine ⟨sound.valid, fun other held => ?_⟩
  have covers := (Saveable.of_loaded sound loaded).covers.hold references secret
  exact ⟨data, loaded, covers other held⟩

end Sound

/-! ### Programs that keep soundness -/

/-- A program has ended in a sound world, and well if it returned a result. -/
def Ends {Result : Type} (digest : Digest) (good : Result → World → Prop)
    (outcome : Except EscrowError Result) (world : World) : Prop :=
  Sound digest world ∧ ∀ result, outcome = .ok result → good result world

/-- Every action of the program keeps soundness, and it ends well. -/
abbrev Safely {Result : Type} (digest : Digest) (good : Result → World → Prop)
    (program : EscrowProgram Result) (world : World) : Prop :=
  program.safe EscrowAnswers (Keeps digest) (Ends digest good) world

section Rules

variable {First Result : Type} {good : Result → World → Prop}

theorem safely_done {result : Result} (sound : Sound digest world) (ends : good result world) :
    Safely digest good (pure result) world :=
  ⟨sound, fun _ same => Except.ok.inj same ▸ ends⟩

theorem safely_fail {error : EscrowError} (sound : Sound digest world) :
    Safely digest good (.fail error) world :=
  ⟨sound, fun _ same => nomatch same⟩

theorem safely_bind {middle : First → World → Prop} {program : EscrowProgram First}
    {next : First → EscrowProgram Result} (first : Safely digest middle program world)
    (rest : ∀ result after, Sound digest after → middle result after →
      Safely digest good (next result) after) : Safely digest good (program >>= next) world := by
  refine Program.safe_bind program world (Program.safe_mono (fun outcome after ends => ?_) program
    world first)
  cases outcome with
  | ok result => exact rest result after ends.1 (ends.2 result rfl)
  | error error => exact safely_fail ends.1

/-- A check of values. -/
theorem safely_check {outcome : Except EscrowError First} {next : First → EscrowProgram Result}
    (sound : Sound digest world)
    (rest : ∀ result, outcome = .ok result → Safely digest good (next result) world) :
    Safely digest good (.ofExcept outcome >>= next) world :=
  Program.safe_ofExcept_bind rest fun _ _ => safely_fail sound

theorem safely_weaken {stronger : Result → World → Prop} {program : EscrowProgram Result}
    (safely : Safely digest stronger program world)
    (implies : ∀ result after, stronger result after → good result after) :
    Safely digest good program world :=
  Program.safe_mono (fun _ after ends => ⟨ends.1, fun result same => implies result after
    (ends.2 result same)⟩) program world safely

end Rules

/-! ### Saving and loading -/

/-- What saving does: the file has been replaced or is as it was. -/
def Saved (digest : Digest) (before : World) (data : RegistryData)
    (outcome : Except EscrowError Unit) (after : World) : Prop :=
  Sound digest after ∧ (after = before ∨ after = before.replaced data) ∧
    (outcome = .ok () → after = before.replaced data ∧ data.validate digest = .ok ())

theorem Saved.items {outcome : Except EscrowError Unit} {after : World}
    (saved : Saved digest world data outcome after) : after.items = world.items := by
  rcases saved.2.1 with rfl | rfl <;> rfl

theorem Saved.registry {outcome : Except EscrowError Unit} {after : World}
    (saved : Saved digest world data outcome after) :
    after.registry = world.registry ∨ after.registry = some data :=
  saved.2.1.imp (congrArg World.registry) (congrArg World.registry)

theorem safe_save (sound : Sound digest world) (saveable : Saveable world data) :
    (save digest data).safe EscrowAnswers (Keeps digest) (Saved digest world data) world := by
  refine Program.safe_ofExcept_bind (fun _ valid => ?_) fun error _ =>
    ⟨sound, Or.inl rfl, fun same => (nomatch same)⟩
  have replaced := saveable.replaced valid
  rintro answer after (rfl | ⟨rfl, error, rfl⟩)
  · refine ⟨replaced, Program.safe_ofExcept ⟨replaced.sound, Or.inr rfl, fun _ => ⟨rfl, valid⟩⟩⟩
  · exact ⟨sound.keeps rfl, sound, Or.inl rfl, fun same => (nomatch same)⟩

theorem safely_save (sound : Sound digest world) (saveable : Saveable world data) :
    Safely digest (fun _ after => after = world.replaced data ∧ data.validate digest = .ok ())
      (save digest data) world :=
  Program.safe_mono (fun _ _ saved => ⟨saved.1, fun _ same => saved.2.2 same⟩) _ world
    (safe_save sound saveable)

/-- Going on whether or not saving worked. -/
theorem safely_save_outcome {Result : Type} {good : Result → World → Prop}
    {rest : Except EscrowError Unit → EscrowProgram Result}
    (sound : Sound digest world) (saveable : Saveable world data)
    (safely : ∀ outcome after, Saved digest world data outcome after →
      Safely digest good (rest outcome) after) :
    Safely digest good ((save digest data).outcome >>= rest) world := by
  refine Program.safe_bind _ world (Program.safe_andThen _ world ?_)
  exact Program.safe_mono safely _ world (safe_save sound saveable)

/-- The file has been loaded; items, clocks and times are as they were. -/
structure Loaded (digest : Digest) (before : World) (data : RegistryData) (after : World) :
    Prop where
  registry : after.registry = some data
  valid : data.validate digest = .ok ()
  rest : after = before ∨ (before.registry = none ∧ after = before.replaced data)

theorem Loaded.eq {after : World} (loaded : Loaded digest world data after) {old : RegistryData}
    (had : world.registry = some old) : after = world ∧ data = old := by
  rcases loaded.rest with same | ⟨missing, -⟩
  · refine ⟨same, ?_⟩
    have has := loaded.registry
    rw [same, had] at has
    exact (Option.some.inj has).symm
  · rw [had] at missing
    cases missing

theorem safely_load (sound : Sound digest world) :
    Safely digest (Loaded digest world) (load digest) world := by
  have reads : Safely digest (fun registry after => after = world ∧ registry = world.registry)
      (.attempt .readRegistry) world := by
    rintro answer after ⟨rfl, found⟩
    refine ⟨sound.keeps rfl, Program.safe_ofExcept ⟨sound, fun registry same => ⟨rfl, ?_⟩⟩⟩
    exact found registry same
  have draws : Safely digest (fun _ after => after = world) (.attempt .randomId) world := by
    rintro answer after rfl
    exact ⟨sound.keeps rfl, Program.safe_ofExcept ⟨sound, fun _ _ => rfl⟩⟩
  refine safely_bind reads ?_
  rintro registry after - ⟨rfl, rfl⟩
  cases loaded : after.registry with
  | some data =>
    exact safely_check sound fun _ valid => safely_done sound ⟨loaded, valid, Or.inl rfl⟩
  | none =>
    refine safely_bind draws ?_
    rintro id same - rfl
    refine safely_bind (safely_save sound ⟨fun item held => ?_, fun old isOld => ?_⟩) ?_
    · obtain ⟨data, isData, -⟩ := sound.covers item held
      rw [loaded] at isData
      cases isData
    · rw [loaded] at isOld
      cases isOld
    · rintro - after sound ⟨rfl, valid⟩
      exact safely_done sound ⟨rfl, valid, Or.inr ⟨loaded, rfl⟩⟩

/-- The times of both clocks have been read. -/
def Observed (before : World) (clock : RetentionClock) (data : RegistryData)
    (observation : Observation) (after : World) : Prop :=
  ∃ wall mono, observation = clock.observed data wall mono ∧
    after = (before.tell wall).tell (before.clock.elapsedTime mono)

theorem safely_observe (sound : Sound digest world) (clock : RetentionClock) (data : RegistryData) :
    Safely digest (Observed world clock data) (clock.observe data) world := by
  rintro wall after rfl
  refine ⟨(sound.tell wall).keeps rfl, ?_⟩
  rintro mono after rfl
  have told := (sound.tell wall).tell (world.clock.elapsedTime mono)
  exact ⟨told.keeps rfl, safely_done told ⟨wall, mono, rfl, rfl⟩⟩

/-! ### Purging -/

/-- The item of the record is to be deleted or has been. -/
def OnItsWay (record : DriveRecord) : Prop :=
  record.escrowState = .deletionPending ∨ record.item = none

def AllOnTheirWay (data : RegistryData) (id : String) : Prop :=
  ∀ record, data.drives[id]? = some record → OnItsWay record

theorem allOnTheirWay_markExpired {id : String} (onTheirWay : AllOnTheirWay data id) (now : Nat) :
    AllOnTheirWay (data.markExpired now) id := by
  intro record has
  rw [RegistryData.get_markExpired] at has
  obtain ⟨earlier, had, rfl⟩ := Option.map_eq_some_iff.mp has
  unfold markPending
  split_ifs
  · exact Or.inl rfl
  · exact onTheirWay earlier had

theorem allOnTheirWay_finishDeletion {id other : String} (onTheirWay : AllOnTheirWay data other)
    (record : DriveRecord) : AllOnTheirWay (data.finishDeletion id record) other := by
  intro found has
  rw [RegistryData.get_finishDeletion] at has
  split_ifs at has
  · cases has
    exact Or.inr rfl
  · exact onTheirWay found has

/-- The drives of a list have the items of the list. -/
def HasItems (data : RegistryData) (pending : List (String × Option ItemRef)) : Prop :=
  ∀ entry ∈ pending, ∃ record : DriveRecord,
    data.drives[entry.1]? = some record ∧ record.item = entry.2

/-- A drive to purge is the drive of a record. -/
theorem mem_pending (valid : data.validate digest = .ok ()) {entry : String × Option ItemRef}
    (member : entry ∈ data.pending) : ∃ record : DriveRecord,
      data.drives[entry.1]? = some record ∧ record.item = entry.2 ∧
      record.escrowState = .deletionPending := by
  obtain ⟨⟨id, record⟩, kept, rfl⟩ := List.mem_map.mp member
  obtain ⟨listed, pending⟩ := List.mem_filter.mp kept
  have has := Std.TreeMap.mem_toList_iff_getElem?_eq_some.mp listed
  refine ⟨record, ?_, rfl, beq_iff_eq.mp pending⟩
  show data.drives[record.driveId]? = some record
  rw [(RegistryData.validRecord valid has).driveId, has]

theorem nodup_pending (valid : data.validate digest = .ok ()) :
    (data.pending.map Prod.fst).Nodup := by
  have named : ∀ entry ∈ data.drives.toList, entry.2.driveId = entry.1 := fun entry listed =>
    (RegistryData.validRecord valid (Std.TreeMap.mem_toList_iff_getElem?_eq_some.mp listed)).driveId
  have distinct : (data.drives.toList.map fun entry => entry.2.driveId).Nodup := by
    rw [List.map_congr_left named, List.Nodup, List.pairwise_map]
    refine data.drives.distinct_keys_toList.imp fun {left right} different same => different ?_
    exact Std.LawfulEqCmp.compare_eq_iff_eq.mpr same
  have sublist : ((data.drives.toList.filter fun entry : String × DriveRecord =>
      entry.2.escrowState == .deletionPending).map fun entry => entry.2.driveId).Sublist
        (data.drives.toList.map fun entry => entry.2.driveId) := List.filter_sublist.map _
  rw [RegistryData.pending, List.map_map]
  exact distinct.sublist sublist

theorem purgePending_safely (pending : List (String × Option ItemRef)) :
    ∀ {data : RegistryData} {world : World} (result : PurgeResult), Sound digest world →
      world.registry = some data → HasItems data pending → (pending.map Prod.fst).Nodup →
      Safely digest (fun ended after => after.registry = some ended.1 ∧
          ∀ id, AllOnTheirWay data id → AllOnTheirWay ended.1 id)
        (purgePending digest pending data result) world := by
  induction pending with
  | nil => exact fun _ sound loaded _ _ => safely_done sound ⟨loaded, fun _ same => same⟩
  | cons entry rest inductionHypothesis =>
    intro data world result sound loaded hasItems distinct
    obtain ⟨id, item⟩ := entry
    rw [List.map_cons, List.nodup_cons] at distinct
    obtain ⟨record, has, isItem⟩ := hasItems (id, item) List.mem_cons_self
    have others : HasItems data rest := fun other member => hasItems other (List.mem_cons_of_mem _ member)
    refine safely_check sound fun found same => ?_
    obtain rfl := required_eq_ok.mp same
    rintro answer after answers
    have dropped := sound.drop found
    cases answer with
    | error error =>
      rcases answers with rfl | ⟨rfl, -⟩
      · exact ⟨dropped.keeps rfl, inductionHypothesis _ dropped loaded others distinct.2⟩
      · exact ⟨sound.keeps rfl, inductionHypothesis _ sound loaded others distinct.2⟩
    | ok done =>
      rcases answers with rfl | ⟨-, _, isError⟩
      · refine ⟨dropped.keeps rfl, safely_check dropped fun found same => ?_⟩
        rw [has] at same
        cases same
        have saveable : Saveable (world.hold _ none) (data.finishDeletion id record) :=
          (Saveable.of_loaded dropped loaded).trans (.finishDeletion data has)
            ((Saveable.of_loaded sound loaded).covers.finishDeletion has isItem)
        refine safely_bind (safely_save dropped saveable) ?_
        rintro - after sound ⟨rfl, -⟩
        refine safely_weaken (inductionHypothesis _ sound rfl (fun other member => ?_) distinct.2)
          fun ended after goes => ⟨goes.1, fun id onTheirWay =>
            goes.2 id (allOnTheirWay_finishDeletion onTheirWay record)⟩
        obtain ⟨found, had, isItem⟩ := others other member
        refine ⟨found, ?_, isItem⟩
        rw [RegistryData.get_finishDeletion, if_neg, had]
        rintro rfl
        exact distinct.1 (List.mem_map.mpr ⟨other, member, rfl⟩)
      · cases isError

theorem purgeExpired_safely (sound : Sound digest world) (clock : RetentionClock) :
    Safely digest (fun _ after => ∃ data, after.registry = some data ∧
        ∀ old id, world.registry = some old → AllOnTheirWay old id → AllOnTheirWay data id)
      (purgeExpired digest clock) world := by
  refine safely_bind (safely_load sound) fun data loadedWorld sound loaded => ?_
  refine safely_check sound fun _ _ => ?_
  refine safely_bind (safely_observe sound clock data) ?_
  rintro _ after sound ⟨wall, mono, rfl, rfl⟩
  have observed := (Saveable.of_loaded sound loaded.registry).observed clock wall mono
  have marked := observed.trans (.markExpired _ _) (observed.covers.markExpired
    (clock.observed data wall mono).now)
  refine safely_bind (safely_save sound marked) ?_
  rintro - after sound ⟨rfl, valid⟩
  refine safely_bind (purgePending_safely _ _ sound rfl (fun entry member => ?_)
    (nodup_pending valid)) ?_
  · obtain ⟨record, has, isItem, -⟩ := mem_pending valid member
    exact ⟨record, has, isItem⟩
  · rintro ⟨purged, result⟩ after sound ⟨registry, onTheirWay⟩
    refine safely_done sound ⟨purged, registry, fun old id had before => onTheirWay id ?_⟩
    obtain ⟨-, rfl⟩ := loaded.eq had
    exact allOnTheirWay_markExpired before _

/-! ### Creating -/

variable {id : String} {record : DriveRecord} {item : ItemRef}

/-- A change of a record that keeps its creation, policy and item. -/
theorem Saveable.change (saveable : Saveable world data) (has : data.drives[id]? = some record)
    (changed : DriveRecord) (created : changed.createdAt = record.createdAt)
    (retention : changed.retention = record.retention) (sameItem : changed.item = record.item) :
    Saveable world (data.insert id changed) := by
  refine saveable.trans (.insert data id changed (Or.inl ⟨record, has, created, retention⟩))
    (saveable.covers.insert fun earlier item had isItem _ => ?_)
  rw [has] at had
  cases had
  rw [sameItem, isItem]

theorem cleanFailedPut_safely (sound : Sound digest world) (saveable : Saveable world data)
    (has : data.drives[id]? = some record) (isItem : record.item = some item) :
    Safely digest (fun _ _ => True) (cleanFailedPut digest data id record item) world := by
  have pending := saveable.change has (record.withState .deletionPending) rfl rfl rfl
  have inserted := data.get_insert_self id (record.withState .deletionPending)
  refine safely_save_outcome sound pending fun outcome after saved => ?_
  have sound := saved.1
  have dropped := sound.drop item
  refine Program.safe_perform_bind fun answer last answers => ?_
  cases answer with
  | error error =>
    rcases answers with rfl | ⟨rfl, -⟩
    · exact ⟨dropped.keeps rfl, safely_done dropped trivial⟩
    · exact ⟨sound.keeps rfl, safely_done sound trivial⟩
  | ok done =>
    rcases answers with rfl | ⟨-, _, isError⟩
    · refine ⟨dropped.keeps rfl, safely_save_outcome dropped ?_ fun outcome last saved =>
        safely_done saved.1 trivial⟩
      have registry : (after.hold item none).registry = world.registry ∨
        (after.hold item none).registry = some _ := saved.registry
      refine pending.after_save (.insert _ id (record.withState .deletionPending).deleted
        (Or.inl ⟨_, inserted, rfl, rfl⟩)) registry ?_
      show Covers _ (Function.update after.items item none)
      rw [saved.items]
      exact pending.covers.insert_deleted inserted isItem _
    · cases isError

theorem cleanFailedPut_fail_safely {Result : Type} {good : Result → World → Prop}
    (sound : Sound digest world) (saveable : Saveable world data)
    (has : data.drives[id]? = some record) (isItem : record.item = some item) (error : EscrowError) :
    Safely digest good (cleanFailedPut digest data id record item >>= fun _ => .fail error) world :=
  safely_bind (cleanFailedPut_safely sound saveable has isItem) fun _ _ sound _ => safely_fail sound

theorem store_safely (sound : Sound digest world) (loaded : world.registry = some data)
    (has : data.drives[id]? = some record) (isItem : record.item = some item)
    (clock : RetentionClock) (secret : String) :
    Safely digest (fun result after => after.registry = some result.1)
      (store digest clock data id record item secret) world := by
  have held := sound.hold loaded ⟨id, record, has, isItem⟩ secret
  refine Program.safe_perform_bind fun answer after answers => ?_
  cases answer with
  | error error =>
    rcases answers with rfl | ⟨rfl, -⟩
    · exact ⟨held.keeps rfl, cleanFailedPut_fail_safely held (.of_loaded held loaded) has isItem error⟩
    · exact ⟨sound.keeps rfl,
        cleanFailedPut_fail_safely sound (.of_loaded sound loaded) has isItem error⟩
  | ok done =>
    rcases answers with rfl | ⟨-, _, isError⟩
    · refine ⟨held.keeps rfl, safely_bind (safely_observe held clock data) ?_⟩
      rintro _ after sound ⟨wall, mono, rfl, rfl⟩
      have saveable := (Saveable.of_loaded sound loaded).observed clock wall mono
      have has : (clock.observed data wall mono).data.drives[id]? = some record := has
      dsimp only
      by_cases late : ((clock.observed data wall mono).suspicious ||
          record.retention.hasExpired (clock.observed data wall mono).now) = true
      · rw [if_pos late]
        exact cleanFailedPut_fail_safely sound saveable has isItem _
      · rw [if_neg late]
        have active := saveable.change has (record.withState .active) rfl rfl rfl
        refine safely_save_outcome sound active fun outcome last saved => ?_
        cases outcome with
        | ok done =>
          rw [(saved.2.2 rfl).1]
          exact safely_done ((saved.2.2 rfl).1 ▸ saved.1) rfl
        | error error =>
          refine cleanFailedPut_fail_safely saved.1 (active.after_save (.refl _) saved.registry ?_)
            (RegistryData.get_insert_self _ _ _) isItem error
          rw [saved.items]
          exact active.covers
    · cases isError

/-- No item is lost with the record of a drive. -/
def Itemless (data : RegistryData) (id : String) : Prop :=
  ∀ record, data.drives[id]? = some record → record.item = none

theorem itemless_of_absent {error : EscrowError}
    (absent : ensure (!data.drives.contains id) error = .ok ()) : Itemless data id := by
  intro record has
  rw [ensure_eq_ok, Bool.not_eq_true', ← Bool.not_eq_true, Std.TreeMap.contains_iff_mem,
    Std.TreeMap.mem_iff_isSome_getElem?, has] at absent
  exact absurd rfl absent

theorem create_safely (sound : Sound digest world) (loaded : world.registry = some data)
    (itemless : Itemless data id) (clock : RetentionClock) (generation : Nat) (createdHere : Bool)
    (policy : EscrowPolicy) (sources : List String) (secret : Option String) :
    Safely digest (fun result after => after.registry = some result.1)
      (create digest clock data id generation createdHere policy sources secret) world := by
  refine safely_check sound fun _ _ => ?_
  refine safely_bind (safely_observe sound clock data) ?_
  rintro _ after sound ⟨wall, mono, rfl, rfl⟩
  refine safely_check sound fun _ _ => ?_
  refine safely_check sound fun item _ => ?_
  have saveable := (Saveable.of_loaded sound loaded).observed clock wall mono
  refine safely_check sound fun _ _ => ?_
  refine safely_bind (safely_save sound (saveable.trans (.insert _ _ _ (Or.inr (le_refl _)))
    (saveable.covers.insert fun earlier item had isItem _ => ?_))) ?_
  · rw [itemless earlier had] at isItem
    cases isItem
  · rintro - after sound ⟨rfl, -⟩
    cases item with
    | none => exact safely_done sound rfl
    | some item =>
      refine safely_check sound fun secret _ => ?_
      exact store_safely sound rfl (RegistryData.get_insert_self _ _ _) rfl clock secret

theorem createDrive_safely (sound : Sound digest world) (clock : RetentionClock) (id : String)
    (policy : EscrowPolicy) (sources : List String) (secret : Option String) :
    Safely digest (fun _ _ => True) (createDrive digest clock id policy sources secret) world := by
  refine safely_bind (safely_load sound) fun data after sound loaded => ?_
  refine safely_check sound fun _ _ => ?_
  refine safely_check sound fun _ absent => ?_
  exact safely_bind (create_safely sound loaded.registry (itemless_of_absent absent) clock _ _ _ _ _)
    fun _ _ sound _ => safely_done sound trivial

theorem importDrive_safely (sound : Sound digest world) (clock : RetentionClock) (id : String)
    (generation : Nat) (sources : List String) :
    Safely digest (fun _ _ => True) (importDrive digest clock id generation sources) world := by
  refine safely_bind (safely_load sound) fun data after sound loaded => ?_
  refine safely_check sound fun _ _ => ?_
  refine safely_check sound fun _ absent => ?_
  exact safely_bind (create_safely sound loaded.registry (itemless_of_absent absent) clock _ _ _ _ _)
    fun _ _ sound _ => safely_done sound trivial

/-! ### Removing and resetting -/

/-- When a removal has returned, the item of the drive is gone. -/
theorem remove_safely (sound : Sound digest world) (clock : RetentionClock) (id : String)
    (forget : Bool) :
    Safely digest (fun _ after => ∃ data, after.registry = some data ∧ Itemless data id)
      (remove digest clock id forget) world := by
  refine safely_bind (safely_load sound) fun data after sound loaded => ?_
  refine safely_check sound fun _ _ => ?_
  refine safely_check sound fun found same => ?_
  have has := required_eq_ok.mp same
  have saveable := Saveable.of_loaded sound loaded.registry
  dsimp only
  by_cases isNone : (found.forgetting forget).item.isNone = true
  · rw [if_pos isNone]
    have itemless : found.item = none := Option.isNone_iff_eq_none.mp isNone
    have marked := saveable.change has (found.forgetting forget) rfl rfl rfl
    have still := data.get_insert_self id (found.forgetting forget)
    cases forget with
    | false =>
      rw [if_neg Bool.false_ne_true]
      refine safely_weaken (safely_save sound marked) ?_
      rintro - last ⟨rfl, -⟩
      refine ⟨_, rfl, fun record had => ?_⟩
      rw [still] at had
      cases had
      exact itemless
    | true =>
      rw [if_pos rfl]
      refine safely_weaken (safely_save sound (marked.trans (.remove _ id)
        (marked.covers.remove fun earlier had => ?_))) ?_
      · rw [still] at had
        cases had
        exact itemless
      · rintro - last ⟨rfl, -⟩
        refine ⟨_, rfl, fun record had => ?_⟩
        rw [RegistryData.get_remove, if_pos rfl] at had
        cases had
  · rw [if_neg isNone]
    refine safely_bind (safely_save sound (saveable.change has
      ((found.forgetting forget).withState .deletionPending) rfl rfl rfl)) ?_
    rintro - last sound ⟨rfl, -⟩
    refine safely_bind (purgeExpired_safely sound clock) ?_
    rintro - last sound ⟨purged, isPurged, onTheirWay⟩
    refine safely_bind (safely_load sound) fun data after sound loaded => ?_
    obtain ⟨rfl, rfl⟩ := loaded.eq isPurged
    cases listed : data.drives[id]? with
    | none =>
      refine safely_weaken (Program.safe_ofExcept ⟨sound, fun _ _ => ⟨data, isPurged, ?_⟩⟩)
        fun _ _ good => good
      intro record had
      rw [listed] at had
      cases had
    | some record =>
      refine Program.safe_ofExcept ⟨sound, fun _ passed => ⟨data, isPurged, fun other had => ?_⟩⟩
      rw [listed] at had
      cases had
      rw [ensure_eq_ok, Option.any_some, Bool.not_eq_true', beq_eq_false_iff_ne] at passed
      refine (onTheirWay _ id rfl ?_ record listed).resolve_left passed
      intro marked had
      rw [RegistryData.get_insert_self] at had
      cases had
      exact Or.inl rfl

theorem resetDrive_safely (sound : Sound digest world) (clock : RetentionClock) (id : String)
    (policy : EscrowPolicy) (secret : Option String) :
    Safely digest (fun _ _ => True) (resetDrive digest clock id policy secret) world := by
  refine safely_bind (safely_load sound) fun _ after sound _ => ?_
  refine safely_check sound fun _ _ => ?_
  refine safely_check sound fun previous _ => ?_
  refine safely_check sound fun _ _ => ?_
  refine safely_check sound fun generation _ => ?_
  refine safely_bind (remove_safely sound clock id false) ?_
  rintro - removed sound ⟨old, isOld, itemless⟩
  refine safely_bind (safely_load sound) fun data after sound loaded => ?_
  obtain ⟨rfl, rfl⟩ := loaded.eq isOld
  refine safely_bind (create_safely sound isOld itemless clock _ _ _ _ _) ?_
  rintro ⟨created, _⟩ last sound registry
  refine safely_check sound fun record same => ?_
  have has := required_eq_ok.mp same
  refine safely_bind (safely_save sound ((Saveable.of_loaded sound registry).change has _ rfl rfl rfl))
    fun _ _ sound _ => safely_done sound trivial

theorem recordRefresh_safely (sound : Sound digest world) (clock : RetentionClock) (id : String)
    (inboxIssued inboxAcknowledged outboxIssued : Nat) :
    Safely digest (fun _ _ => True)
      (recordRefresh digest clock id inboxIssued inboxAcknowledged outboxIssued) world := by
  refine safely_bind (safely_load sound) fun data after sound loaded => ?_
  refine safely_check sound fun _ _ => ?_
  refine safely_bind (safely_observe sound clock data) ?_
  rintro _ after sound ⟨wall, mono, rfl, rfl⟩
  refine safely_check sound fun _ _ => ?_
  refine safely_check sound fun record same => ?_
  have has := required_eq_ok.mp same
  refine safely_check sound fun _ _ => ?_
  refine safely_check sound fun _ _ => ?_
  have saveable := (Saveable.of_loaded sound loaded.registry).observed clock wall mono
  exact safely_weaken (safely_save sound (saveable.change has _ rfl rfl rfl)) fun _ _ _ => trivial

/-! ### Retrieving -/

theorem retrievableUntil_eq_ok {expiry : Nat} :
    retrievableUntil record = .ok expiry ↔
      record.createdHere = true ∧ record.retention = .until expiry := by
  unfold retrievableUntil
  rw [check_bind_eq_ok, ensure_eq_ok]
  cases record.retention <;> simp

/-- A secret has been returned: its record is active, and not expired at any time that was read
meanwhile or had been recorded. -/
def Retrieved (id : String) (before after : World) : Prop :=
  ∃ (data : RegistryData) (record : DriveRecord) (expiry : Nat), after.registry = some data ∧
    data.drives[id]? = some record ∧ record.createdHere = true ∧ record.escrowState = .active ∧
    record.forgetPending = false ∧ record.retention = .until expiry ∧ data.lastObservedAt < expiry ∧
    ∃ readings, after.told = readings ++ before.told ∧ ∀ time ∈ readings, time ≤ data.lastObservedAt

theorem Loaded.told {after : World} (loaded : Loaded digest world data after) :
    after.told = world.told ∧ after.clock = world.clock := by
  rcases loaded.rest with rfl | ⟨-, rfl⟩ <;> exact ⟨rfl, rfl⟩

theorem purgeExpired_fail_safely {Result : Type} {good : Result → World → Prop}
    (sound : Sound digest world) (clock : RetentionClock) (error : EscrowError) :
    Safely digest good (purgeExpired digest clock >>= fun _ => .fail error) world :=
  safely_bind (purgeExpired_safely sound clock) fun _ _ sound _ => safely_fail sound

theorem retrieve_safely (sound : Sound digest world) (id : String) :
    Safely digest (fun _ after => Retrieved id world after) (retrieve digest world.clock id) world := by
  refine safely_bind (safely_load sound) fun data start sound loaded => ?_
  obtain ⟨told, sameClock⟩ := loaded.told
  refine safely_check sound fun _ _ => ?_
  refine safely_bind (safely_observe sound world.clock data) ?_
  rintro _ after sound ⟨wall, mono, rfl, rfl⟩
  refine safely_check sound fun record same => ?_
  have has := required_eq_ok.mp same
  refine safely_check sound fun expiry allowed => ?_
  obtain ⟨createdHere, retention⟩ := retrievableUntil_eq_ok.mp allowed
  have first := (Saveable.of_loaded sound loaded.registry).observed world.clock wall mono
  by_cases late : expiry ≤ (world.clock.observed data wall mono).now
  · rw [if_pos late]
    exact safely_bind (safely_save sound first) fun _ _ sound _ => purgeExpired_fail_safely sound _ _
  · rw [if_neg late]
    by_cases suspicious : (world.clock.observed data wall mono).suspicious = true
    · rw [if_pos suspicious]
      exact safely_bind (safely_save sound first) fun _ _ sound _ => safely_fail sound
    · rw [if_neg suspicious]
      refine safely_check sound fun _ usable => ?_
      rw [ensure_eq_ok, Bool.and_eq_true, beq_iff_eq, Bool.not_eq_true'] at usable
      refine safely_check sound fun item _ => ?_
      refine safely_bind (safely_save sound first) ?_
      rintro - saved sound ⟨rfl, -⟩
      refine Program.safe_bind _ _ ?_
      rintro answer after ⟨rfl, -⟩
      refine ⟨sound.keeps rfl, Program.safe_ofExcept ?_⟩
      cases answer with
      | error error => exact safely_fail sound
      | ok secret =>
        refine safely_bind (safely_observe sound world.clock _) ?_
        rintro _ after sound ⟨wallLater, monoLater, rfl, rfl⟩
        have second := (Saveable.of_loaded sound rfl).observed world.clock wallLater monoLater
        refine safely_bind (safely_save sound second) ?_
        rintro - saved sound ⟨rfl, -⟩
        split_ifs with expired
        · exact purgeExpired_fail_safely sound _ _
        · refine safely_check sound fun _ _ => safely_done sound ?_
          refine ⟨_, record, expiry, rfl, has, createdHere, usable.1, usable.2, retention,
            not_le.mp expired, [start.clock.elapsedTime monoLater, wallLater,
              start.clock.elapsedTime mono, wall], ?_, ?_⟩
          · rw [← told]
            rfl
          · rw [sameClock]
            intro time isReading
            simp only [List.mem_cons, List.not_mem_nil, or_false] at isReading
            unfold RetentionClock.observed
            dsimp only
            rcases isReading with rfl | rfl | rfl | rfl <;> omega

/-! ### Runs -/

inductive EscrowCall where
  | createDrive (id : String) (policy : EscrowPolicy) (sources : List String)
      (secret : Option String)
  | importDrive (id : String) (generation : Nat) (sources : List String)
  | retrieve (id : String)
  | delete (id : String)
  | forget (id : String)
  | resetDrive (id : String) (policy : EscrowPolicy) (secret : Option String)
  | purgeExpired
  | recordRefresh (id : String) (inboxIssued inboxAcknowledged outboxIssued : Nat)

/-- The program of a call, whatever it returns. -/
def EscrowCall.program (digest : Digest) (clock : RetentionClock) :
    EscrowCall → EscrowProgram Unit
  | .createDrive id policy sources secret => do
      let _ ← AiSwitcher.Host.createDrive digest clock id policy sources secret
  | .importDrive id generation sources => do
      let _ ← AiSwitcher.Host.importDrive digest clock id generation sources
  | .retrieve id => do let _ ← AiSwitcher.Host.retrieve digest clock id
  | .delete id => AiSwitcher.Host.delete digest clock id
  | .forget id => AiSwitcher.Host.forget digest clock id
  | .resetDrive id policy secret => do
      let _ ← AiSwitcher.Host.resetDrive digest clock id policy secret
  | .purgeExpired => do let _ ← AiSwitcher.Host.purgeExpired digest clock
  | .recordRefresh id inboxIssued inboxAcknowledged outboxIssued =>
      AiSwitcher.Host.recordRefresh digest clock id inboxIssued inboxAcknowledged outboxIssued

/-- A call that ended or was cut off, or another process with clocks of its own. -/
inductive EscrowStep (answers : Behaviour EscrowAction World) (digest : Digest) : World → World → Prop
  | call (call : EscrowCall) {before after : World} {outcome : Option (Except EscrowError Unit)}
      (reaches : (call.program digest before.clock).Reaches answers before outcome after) :
      EscrowStep answers digest before after
  | process (world : World) (clock : RetentionClock) :
      EscrowStep answers digest world { world with clock, told := clock.wallStart :: world.told }

/-- Calls and processes one after another. -/
def EscrowRun (answers : Behaviour EscrowAction World) (digest : Digest) : World → World → Prop :=
  Relation.ReflTransGen (EscrowStep answers digest)

theorem EscrowCall.safely (sound : Sound digest world) (call : EscrowCall) :
    Safely digest (fun _ _ => True) (call.program digest world.clock) world := by
  cases call with
  | createDrive id policy sources secret =>
    exact safely_bind (createDrive_safely sound _ id policy sources secret)
      fun _ _ sound _ => safely_done sound trivial
  | importDrive id generation sources =>
    exact safely_bind (importDrive_safely sound _ id generation sources)
      fun _ _ sound _ => safely_done sound trivial
  | retrieve id =>
    exact safely_bind (retrieve_safely sound id) fun _ _ sound _ => safely_done sound trivial
  | delete id => exact safely_weaken (remove_safely sound _ id false) fun _ _ _ => trivial
  | forget id => exact safely_weaken (remove_safely sound _ id true) fun _ _ _ => trivial
  | resetDrive id policy secret =>
    exact safely_bind (resetDrive_safely sound _ id policy secret)
      fun _ _ sound _ => safely_done sound trivial
  | purgeExpired =>
    exact safely_bind (purgeExpired_safely sound _) fun _ _ sound _ => safely_done sound trivial
  | recordRefresh id inboxIssued inboxAcknowledged outboxIssued =>
    exact recordRefresh_safely sound _ id inboxIssued inboxAcknowledged outboxIssued

/-! ### What runs keep -/

theorem Keeps.refl (sound : Sound digest world) : Keeps digest world world := sound.keeps rfl

theorem Keeps.trans {first second third : World} (earlier : Keeps digest first second)
    (later : Keeps digest second third) : Keeps digest first third := by
  refine ⟨later.sound, fun old isOld => ?_⟩
  obtain ⟨between, isBetween, succeeds⟩ := earlier.succeeds old isOld
  obtain ⟨new, isNew, succeedsLater⟩ := later.succeeds between isBetween
  exact ⟨new, isNew, succeeds.trans succeedsLater⟩

theorem keeps_of_reaches {before after : World} (sound : Sound digest before)
    (reaches : Relation.ReflTransGen (Keeps digest) before after) : Keeps digest before after := by
  induction reaches with
  | refl => exact .refl sound
  | tail _ last inductionHypothesis => exact inductionHypothesis.trans last

/-- The step lemma. -/
theorem EscrowStep.keeps {before after : World} (step : EscrowStep EscrowAnswers digest before after)
    (sound : Sound digest before) : Keeps digest before after := by
  cases step with
  | call call reaches => exact keeps_of_reaches sound (reaches.safe (call.safely sound)).1
  | process clock =>
    refine Sound.keeps ?_ rfl
    exact ⟨sound.valid, sound.covers⟩

/-- The run lemma. -/
theorem EscrowRun.keeps {start finish : World} (run : EscrowRun EscrowAnswers digest start finish)
    (sound : Sound digest start) : Keeps digest start finish := by
  induction run with
  | refl => exact .refl sound
  | tail _ step inductionHypothesis =>
    exact inductionHypothesis.trans (step.keeps inductionHypothesis.sound)

theorem EscrowRun.sound {start finish : World} (run : EscrowRun EscrowAnswers digest start finish)
    (sound : Sound digest start) : Sound digest finish := (run.keeps sound).sound

/-- Nothing has been recorded or stored yet. -/
def World.fresh (clock : RetentionClock) : World where
  registry := none
  items := fun _ => none
  clock := clock
  told := []

theorem World.sound_fresh (digest : Digest) (clock : RetentionClock) :
    Sound digest (World.fresh clock) :=
  ⟨fun _ isData => (nomatch isData), fun _ held => (nomatch held)⟩

end AiSwitcher.Host
