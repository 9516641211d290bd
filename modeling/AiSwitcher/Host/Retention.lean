/-
This file proves that retention cannot be extended. Whatever the clocks tell, and over
any processes, a secret is returned only while neither the time recorded in the registry
nor any time read meanwhile has reached its expiry. The time recorded never goes back,
so once a time past the expiry has been saved, the record it belongs to is lost for good.

A time that was read by a call that refused without saving is not recorded.
-/

import AiSwitcher.Host.EscrowCleanup

namespace AiSwitcher.Host

open Interrupted

/-- Along every run the time recorded never decreases. A retrieval that returns a secret finds an
active record of this computer that has not expired, neither by the time recorded nor by the times
it reads; and where the record of the drive had expired by the time recorded in an earlier world of
the run, the one it finds is another, created since. -/
theorem retention_notExtended (digest : Digest) (clock : RetentionClock) {earlier world : World}
    (start : EscrowRun EscrowAnswers digest (World.fresh clock) earlier)
    (run : EscrowRun EscrowAnswers digest earlier world) :
    (∀ old, earlier.registry = some old →
      ∃ new, world.registry = some new ∧ old.lastObservedAt ≤ new.lastObservedAt) ∧
    ∀ (id secret : String) (after : World),
      (retrieve digest world.clock id).Reaches EscrowAnswers world (some (.ok secret)) after →
      Retrieved id world after ∧
      ∀ (old new : RegistryData) (record found : DriveRecord) (expiry : Nat),
        earlier.registry = some old → old.drives[id]? = some record →
        record.retention = .until expiry → expiry ≤ old.lastObservedAt →
        after.registry = some new → new.drives[id]? = some found →
        record.createdAt < found.createdAt := by
  have sound := start.sound (World.sound_fresh digest clock)
  have keeps := run.keeps sound
  refine ⟨fun old isOld => ?_, fun id secret after retrieves => ?_⟩
  · obtain ⟨new, isNew, succeeds⟩ := keeps.succeeds old isOld
    exact ⟨new, isNew, succeeds.observed⟩
  obtain ⟨reaches, ends⟩ := retrieves.safe (retrieve_safely keeps.sound id)
  have retrieved := (ends _ rfl).2 secret rfl
  refine ⟨retrieved, fun old new record found expiry isOld had retention expired isNew has => ?_⟩
  have succeeds : Succeeds old new := by
    obtain ⟨last, isLast, succeeds⟩ :=
      (keeps.trans (keeps_of_reaches keeps.sound reaches)).succeeds old isOld
    rw [isNew] at isLast
    cases isLast
    exact succeeds
  have valid := RegistryData.validRecord (sound.valid old isOld) had
  have created : record.createdAt < expiry := createdAt_lt_of_until valid.retention retention
  rcases succeeds.records id found has with ⟨same, hadSame, -, kept⟩ | createdSince
  · -- the same record would have to be active with a deadline that had passed
    rw [had] at hadSame
    cases hadSame
    obtain ⟨data, active, deadline, isData, hasActive, -, -, -, policy, before, -⟩ := retrieved
    rw [isNew] at isData
    cases isData
    rw [has] at hasActive
    cases hasActive
    rw [kept, retention] at policy
    cases policy
    exact absurd (expired.trans succeeds.observed) before.not_ge
  · exact (created.trans_le expired).trans_le createdSince

/-! ### A clock that jumps -/

namespace JumpingClock

def shortDigest : Digest := ⟨List.take 4⟩

def startClock : RetentionClock := ⟨10, 0⟩

/-- A call at a time of the wall clock, in a world that works. -/
def callAt (wall : Nat) (call : EscrowCall) (world : World) : World :=
  ((call.program shortDigest world.clock).run (World.answer wall 0) world).2

def created : World :=
  callAt 10 (.createDrive "drive" (.until 100) [] (some "secret")) (World.fresh startClock)

/-- A drive that is not recorded was asked for at a time past the expiry. -/
def askedForOther : World := callAt 200 (.retrieve "other") created

def retrieved (world : World) : Except EscrowError String × World :=
  (retrieve shortDigest world.clock "drive").run (World.answer 20 0) world

theorem run_callAt (wall : Nat) (call : EscrowCall) (world : World) :
    EscrowStep WorkingAnswers shortDigest world (callAt wall call world) :=
  .call call (Program.reaches_run (World.answer_works wall 0) _ _)

end JumpingClock

open JumpingClock in
/-- A secret is returned after a time past its expiry was read by a call that saved nothing. -/
theorem not_retention_ofEveryReading : ¬ ∀ (world after : World) (secret : String)
    (data : RegistryData) (record : DriveRecord) (expiry : Nat),
    EscrowRun WorkingAnswers shortDigest (World.fresh startClock) world →
    (retrieve shortDigest world.clock "drive").Reaches WorkingAnswers world (some (.ok secret)) after →
    after.registry = some data → data.drives["drive"]? = some record →
    record.retention = .until expiry → ∀ time ∈ after.told, time < expiry := by
  intro claimed
  have run : EscrowRun WorkingAnswers shortDigest (World.fresh startClock) askedForOther :=
    .tail (.single (run_callAt _ _ _)) (run_callAt _ _ _)
  have reaches := Program.reaches_run (World.answer_works 20 0)
    (retrieve shortDigest askedForOther.clock "drive") askedForOther
  have returned : ((retrieve shortDigest askedForOther.clock "drive").run (World.answer 20 0)
      askedForOther).1 = .ok "secret" := by decide +kernel
  rw [returned] at reaches
  have told : 200 ∈ (retrieved askedForOther).2.told := by decide +kernel
  exact absurd (claimed _ _ _ _ _ 100 run reaches rfl rfl rfl 200 told) (by decide)

open JumpingClock in
/-- A secret is returned before its expiry. -/
theorem retention_notExtended_retrieved :
    Retrieved "drive" created (retrieved created).2 := by
  have run : EscrowRun EscrowAnswers shortDigest (World.fresh startClock) created :=
    .single (.call _ (Program.reaches_run (World.answer_allowed 10 0) _ _))
  have reaches := Program.reaches_run (World.answer_allowed 20 0)
    (retrieve shortDigest created.clock "drive") created
  have returned : (retrieved created).1 = .ok "secret" := by decide +kernel
  unfold retrieved at returned
  rw [returned] at reaches
  exact ((retention_notExtended shortDigest startClock run .refl).2 "drive" "secret" _ reaches).1

end AiSwitcher.Host
