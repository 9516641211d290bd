/-
This file proves when a hard-limit failure is handled once. A report of a failure is refused when
the ledger has a swap of the pool that is not older than the failure, but a swap is recorded under
the clock its call had read when it began, not under the time at which it took effect. So a failure
between the two is not found in the ledger, and its report swaps the pool a second time, away from
the member that had become active after the failure.

In every run in which no swap takes effect across a failure in this way, and in which the ledger
takes every swap, a report swaps only away from a member that was active before the failure. The
lock carries the argument: whenever it is free, every failure up to the last change of the active
member has a swap in the ledger that is not older.
-/

import AiSwitcher.Identities.Pool.LimitCalls

namespace AiSwitcher.Limits

open Interrupted

/-! ### What is promised -/

/-- The request reports a hard limit that was hit at this time. -/
def Request.Reports (request : Request) (failure : ℤ) : Prop :=
  ∃ poolKey reason clock options, request = .limited poolKey reason clock options ∧
    options.assumeLimited = true ∧ options.failureAtMs = some failure

/-- The request does not name another member as the one that has failed. -/
def Request.Suits (active : Option String) : Request → Prop
  | .limited _ _ _ options => ∀ expected, options.expectedActive = some expected →
      active = some expected
  | .swap _ _ _ _ => True

section Promises

variable {Call : Type} (requests : Call → Request) (name : String)

/-- A report swaps only away from a member that became active before the failure. -/
def HandledOnce : Entry Call → Prop
  | .swapped call _ _ (some became) => ∀ failure, (requests call).Reports failure → became < failure
  | _ => True

/-- Every failure up to the last change of the active member has a swap in the ledger that is not
older, unless its report names another member. -/
def Covered (world : World Call) : Prop :=
  ∀ became, world.since name = some became → ∀ other failure, (requests other).Reports failure →
    (requests other).Suits (activeOf world.registry name) → failure ≤ became →
    ∃ event, .event event ∈ world.ledger ∧ event.pool = name ∧ failure ≤ event.ts

/-- A change of the active member is persisted only by a call whose clock is not older than the
failures that have happened by then, and the ledger takes every event. -/
def Timely (call : Call) (Answer : Type) (action : PoolAction Answer) (before : World Call)
    (result : Answer) (after : World Call) : Prop :=
  match action with
  | .saveRegistry file => result = .ok () → ∀ decided, before.lastRead call = some decided →
      ∀ other failure, (requests other).Reports failure →
        (requests other).Suits (activeOf file name) → failure ≤ after.clock → failure ≤ decided
  | .appendLedger _ => result = .ok ()
  | _ => True

/-- What the calls do in a run whose steps are all timely. -/
def timely [DecidableEq Call] (call : Call) : Behaviour PoolAction (World Call) :=
  fun Answer action before result after =>
    Chosen answer call Answer action before result after ∧
      Timely requests name call Answer action before result after

end Promises

/-! ### What a step of a call keeps -/

section Steps

variable {Call : Type} [DecidableEq Call] (paths : Paths) (tool : String)
  (static : List Identity) (requests : Call → Request) (name dir : String)

/-- Nothing is owed to the ledger while the lock is free. -/
def Settled (world : World Call) : Prop :=
  world.holder dir = none → Covered requests name world

structure Handles (call : Call) (before after : World Call) : Prop where
  registry : frozen before.registry = static → frozen after.registry = static
  holder : ∀ other, other ≠ call → before.holder dir = some other → after.holder dir = some other
  lastRead : ∀ other, other ≠ call → after.lastRead other = before.lastRead other
  clock : before.clock ≤ after.clock
  files : before.holder dir = some call ∨ (after.registry = before.registry ∧
    after.since = before.since ∧ after.ledger = before.ledger)
  settled : Settled requests name dir before → Settled requests name dir after
  trace : after.trace = before.trace ∨ ∃ entry, after.trace = entry :: before.trace ∧
    HandledOnce requests entry

variable {static requests name dir} {call : Call} {world after : World Call}

/-- An assertion about the files alone, which the passing of time does not end. -/
def Filed (facts : World Call → Prop) : Prop :=
  ∀ before after : World Call, after.registry = before.registry → after.since = before.since →
    after.ledger = before.ledger → before.clock ≤ after.clock → facts before → facts after

omit [DecidableEq Call] in
theorem filed_covered : Filed (Covered requests name) := by
  intro before after registry since ledger _ covered
  unfold Covered
  rw [registry, since, ledger]
  exact covered

omit [DecidableEq Call] in
theorem Looked.handles (looked : Looked call world after) :
    Handles static requests name dir call world after where
  registry := fun same => by rw [looked.registry]; exact same
  holder := fun other _ held => by rw [looked.holder]; exact held
  lastRead := fun other _ => by rw [looked.lastRead]
  clock := looked.clock
  files := .inr ⟨looked.registry, looked.since, looked.ledger⟩
  settled := fun settled free => filed_covered _ _ looked.registry looked.since looked.ledger
    looked.clock (settled (by rw [← looked.holder]; exact free))
  trace := by
    obtain same | loaded | ⟨member, read⟩ := looked.trace
    · exact .inl same
    · exact .inr ⟨_, loaded, trivial⟩
    · exact .inr ⟨_, read, trivial⟩

/-- A call that has not taken the lock, or has released it. -/
structure Outside (static : List Identity) (requests : Call → Request) (name dir : String)
    (call : Call) (decided : Option ℤ) (world : World Call) : Prop where
  registry : frozen world.registry = static
  settled : Settled requests name dir world
  lastRead : world.lastRead call = decided

/-- A call that holds the lock, with what it knows of the files. -/
structure Inside (static : List Identity) (dir : String) (call : Call) (decided : Option ℤ)
    (facts : World Call → Prop) (world : World Call) : Prop where
  holder : world.holder dir = some call
  registry : frozen world.registry = static
  lastRead : world.lastRead call = decided
  facts : facts world

theorem setting_handles :
    Setting (Handles static requests name dir) (timely requests name) call where
  chosen := fun _ _ _ _ _ answers => answers.1
  looks := fun _ _ looked => looked.handles

variable {decided : Option ℤ} {facts : World Call → Prop}

omit [DecidableEq Call] in
theorem lasting_outside :
    Lasting (Handles static requests name dir) call
      (Outside static requests name dir call decided) where
  unmoved := by
    rintro before after (none | ⟨other, different, handles⟩) outside
    · exact none.elim
    · exact ⟨handles.registry outside.registry, handles.settled outside.settled,
        (handles.lastRead call fun same => different same.symm).trans outside.lastRead⟩
  looked := fun before after looked outside =>
    ⟨by rw [looked.registry]; exact outside.registry,
      (show Handles static requests name dir call before after from looked.handles).settled
        outside.settled,
      by rw [looked.lastRead]; exact outside.lastRead⟩

omit [DecidableEq Call] in
theorem lasting_inside (filed : Filed facts) :
    Lasting (Handles static requests name dir) call (Inside static dir call decided facts) where
  unmoved := by
    rintro before after (none | ⟨other, different, handles⟩) inside
    · exact none.elim
    · obtain held | ⟨registry, since, ledger⟩ := handles.files
      · exact absurd (Option.some.inj (held.symm.trans inside.holder)) different
      · exact ⟨handles.holder call (fun same => different same.symm) inside.holder,
          handles.registry inside.registry,
          (handles.lastRead call fun same => different same.symm).trans inside.lastRead,
          filed _ _ registry since ledger handles.clock inside.facts⟩
  looked := fun before after looked inside =>
    ⟨by rw [looked.holder]; exact inside.holder, by rw [looked.registry]; exact inside.registry,
      by rw [looked.lastRead]; exact inside.lastRead,
      filed _ _ looked.registry looked.since looked.ledger looked.clock inside.facts⟩

/-! ### Under the lock -/

variable {paths tool} {options : PerformSwapOptions} {pool : PoolIdentity} {target : Identity}
  {file : List Identity}

/-- The lock is held, and nothing is owed to the ledger. -/
def Finished (static : List Identity) (requests : Call → Request) (name dir : String) (call : Call)
    (world : World Call) : Prop :=
  ∃ decided, Inside static dir call decided (Covered requests name) world

omit [DecidableEq Call] in
theorem lasting_finished :
    Lasting (Handles static requests name dir) call (Finished static requests name dir call) where
  unmoved := fun before after others ⟨decided, inside⟩ =>
    ⟨decided, (lasting_inside filed_covered).unmoved before after others inside⟩
  looked := fun before after looked ⟨decided, inside⟩ =>
    ⟨decided, Lasting.looked (show Lasting (Handles static requests name dir) call
      (Inside static dir call decided (Covered requests name)) from lasting_inside filed_covered)
        before after looked inside⟩

/-- The registry is still the one that was loaded under the lock. -/
def Loaded (requests : Call → Request) (name : String) (file : List Identity)
    (world : World Call) : Prop :=
  Covered requests name world ∧ world.registry = file

omit [DecidableEq Call] in
theorem filed_loaded : Filed (Loaded requests name file) :=
  fun before after registry since ledger clock loaded =>
    ⟨filed_covered before after registry since ledger clock loaded.1, registry.trans loaded.2⟩

/-- The active member has changed, and the swap that is to be recorded is not older than the
failures until then. -/
def Owing (requests : Call → Request) (name : String) (now : Option ℤ) (world : World Call) :
    Prop :=
  ∃ became, world.since name = some became ∧ became ≤ world.clock ∧
    ∀ other failure, (requests other).Reports failure →
      (requests other).Suits (activeOf world.registry name) → failure ≤ became →
        ∀ decided, now = some decided → failure ≤ decided

/-- Unless the swap was a no-op, it may be owed. -/
def Persisted (requests : Call → Request) (name : String) (pool : PoolIdentity)
    (target : Identity) (now : Option ℤ) (world : World Call) : Prop :=
  Covered requests name world ∨
    (pool.swapPool.active ≠ some target.name ∧ Owing requests name now world)

omit [DecidableEq Call] in
theorem filed_persisted {now : Option ℤ} :
    Filed (Persisted requests name pool target now) := by
  intro before after registry since ledger clock persisted
  obtain covered | ⟨moved, became, isSince, past, timely⟩ := persisted
  · exact .inl (filed_covered before after registry since ledger clock covered)
  · refine .inr ⟨moved, became, by rw [since]; exact isSince, past.trans clock, ?_⟩
    rw [registry]
    exact timely

/-- What a call knows once the active member is persisted, or could not be. -/
def AfterPersist (static : List Identity) (requests : Call → Request) (name dir : String)
    (call : Call) (decided : Option ℤ) (pool : PoolIdentity) (target : Identity)
    (now : Option ℤ) : Except PoolError Unit → World Call → Prop
  | .ok _, world => Inside static dir call decided (Persisted requests name pool target now) world
  | .error _, world => Finished static requests name dir call world

theorem secure_persistActive (found : requirePool paths file options.pool tool = .ok pool)
    (nodup : (keysOf file).Nodup) (named : pool.name = name)
    (clocked : ∀ now, options.now = some now → decided = some now)
    (inside : Inside static dir call decided (Loaded requests name file) world) :
    (persistActive pool target).secure (Handles static requests name dir) undisturbed
      (timely requests name) call
      (AfterPersist static requests name dir call decided pool target options.now) world := by
  have finished : ∀ later, Inside static dir call decided (Loaded requests name file) later →
      Finished static requests name dir call later :=
    fun later inside => ⟨decided, inside.holder, inside.registry, inside.lastRead, inside.facts.1⟩
  have lasting : Lasting (Handles static requests name dir) call
      (Inside static dir call decided (Persisted requests name pool target options.now)) :=
    lasting_inside filed_persisted
  have loading : Stable (Handles static requests name dir) undisturbed call
      (Inside static dir call decided (Loaded requests name file)) :=
    (lasting_inside filed_loaded).unmoved
  refine secure_load_bind setting_handles lasting_finished
    loading (fun later time holds => ⟨holds.holder, holds.registry, holds.lastRead,
      filed_loaded later _ rfl rfl rfl (le_clock_elapse later time) holds.facts⟩)
    finished (fun _ _ wants => wants) inside fun later holds _ => ?_
  obtain rfl := holds.facts.2
  have recorded : Inside static dir call decided (Loaded requests name later.registry)
      (later.record (.loaded call later.registry)) :=
    ⟨holds.holder, holds.registry, holds.lastRead, holds.facts⟩
  have looked := swapPool_of_requirePool paths tool nodup found
  rw [looked]
  dsimp only
  split_ifs with already
  · exact fun latest relies => lasting.unmoved.relied relies
      ⟨recorded.holder, recorded.registry, recorded.lastRead, .inl recorded.facts.1⟩
  intro latest relies result after answers
  obtain ⟨⟨choice, answered⟩, isTimely⟩ := answers
  have still := loading.relied relies recorded
  have later := le_clock_elapse latest choice.elapsed
  dsimp only [answer, World.perform] at answered
  split_ifs at answered with fault
  · cases answered
    have elapsed : Inside static dir call decided (Loaded requests name _)
        (latest.elapse choice.elapsed) := ⟨still.holder, still.registry, still.lastRead, still.facts⟩
    refine ⟨⟨fun same => same, fun _ _ held => held, fun _ _ => rfl, later,
      .inr ⟨rfl, rfl, rfl⟩, fun settled => settled, .inl rfl⟩, fun last relies => ?_⟩
    exact lasting_finished.unmoved.relied relies (finished _ elapsed)
  cases answered
  have wasActive : activeOf latest.registry name = pool.swapPool.active := by
    rw [still.facts.2, ← named, activeOf, looked]
    rfl
  have isActive : activeOf (setActive pool.name target.name latest.registry) name =
      some target.name := by
    rw [still.facts.2, ← named]
    exact activeOf_setActive looked
  rw [← still.facts.2] at isTimely ⊢
  have changed : ((latest.elapse choice.elapsed).save
      (setActive pool.name target.name latest.registry)).since name =
        some (latest.elapse choice.elapsed).clock := by
    show (if activeOf _ name = activeOf latest.registry name then _ else _) = _
    rw [if_neg (by rw [isActive, wasActive]; exact fun same => already same.symm)]
  have same : frozen (setActive pool.name target.name latest.registry) = static := by
    rw [frozen_setActive]
    exact still.registry
  refine ⟨⟨fun _ => same, fun _ _ held => held, fun _ _ => rfl, later, .inl still.holder,
    fun _ free => absurd (still.holder.symm.trans free) nofun, .inl rfl⟩, fun last relies => ?_⟩
  refine lasting.unmoved.relied relies
    ⟨still.holder, same, still.lastRead, .inr ⟨already, _, changed, le_refl _, ?_⟩⟩
  intro other failure reports suits past now isNow
  exact isTimely rfl now (still.lastRead.trans (clocked now isNow)) other failure reports suits past

/-- The swap that is about to be recorded is not older than the failures until the change. -/
def Dated (requests : Call → Request) (name : String) (ts : ℤ) (world : World Call) : Prop :=
  Covered requests name world ∨ ∃ became, world.since name = some became ∧
    ∀ other failure, (requests other).Reports failure →
      (requests other).Suits (activeOf world.registry name) → failure ≤ became → failure ≤ ts

omit [DecidableEq Call] in
theorem filed_dated {ts : ℤ} : Filed (Dated requests name ts) := by
  intro before after registry since ledger clock dated
  obtain covered | ⟨became, isSince, dates⟩ := dated
  · exact .inl (filed_covered before after registry since ledger clock covered)
  · refine .inr ⟨became, by rw [since]; exact isSince, ?_⟩
    rw [registry]
    exact dates

omit [DecidableEq Call] in
theorem Covered.append {event : SwapEvent} (covered : Covered requests name world) :
    Covered requests name (world.append event) := by
  intro became isSince other failure reports suits past
  obtain ⟨known, member, own, late⟩ := covered became isSince other failure reports suits past
  exact ⟨known, List.mem_append_left _ member, own, late⟩

omit [DecidableEq Call] in
theorem Dated.append {event : SwapEvent} (dated : Dated requests name event.ts world)
    (own : event.pool = name) : Covered requests name (world.append event) := by
  obtain covered | ⟨became, isSince, dates⟩ := dated
  · exact covered.append
  · intro other isOther reporter failure reports suits past
    obtain rfl : other = became := Option.some.inj (isOther.symm.trans isSince)
    exact ⟨event, List.mem_append_right _ (List.mem_singleton_self _), own,
      dates reporter failure reports suits past⟩

theorem ends_recordSwap {fsResult : SwapResult} (named : pool.name = name)
    (noop : fsResult.noop = true → pool.swapPool.active = some target.name)
    (inside : Inside static dir call decided (Persisted requests name pool target options.now)
      world) :
    Ends (Handles static requests name dir) (timely requests name) call
      (Finished static requests name dir call) (recordSwap options pool target fsResult) world := by
  unfold recordSwap
  split_ifs with isNoop
  · refine ends_done lasting_finished ⟨decided, inside.holder, inside.registry, inside.lastRead, ?_⟩
    obtain covered | ⟨moved, -⟩ := inside.facts
    · exact covered
    · exact absurd (noop isNoop) moved
  intro later relies ts after answers
  have persisting : Stable (Handles static requests name dir) undisturbed call
      (Inside static dir call decided (Persisted requests name pool target options.now)) :=
    (lasting_inside filed_persisted).unmoved
  have still := persisting.relied relies inside
  obtain ⟨⟨choice, answered⟩, -⟩ := answers
  have passed := le_clock_elapse later choice.elapsed
  cases answered
  refine ⟨⟨fun same => same, fun _ _ held => held,
    fun other different => Function.update_of_ne different _ _, passed, .inr ⟨rfl, rfl, rfl⟩,
    fun settled => settled, .inl rfl⟩, ?_⟩
  have dated : Inside static dir call
      (some (options.now.getD (later.elapse choice.elapsed).clock))
      (Dated requests name (options.now.getD (later.elapse choice.elapsed).clock))
      ((later.elapse choice.elapsed).readClock call
        (options.now.getD (later.elapse choice.elapsed).clock)) := by
    refine ⟨still.holder, still.registry, Function.update_self _ _ _, ?_⟩
    obtain covered | ⟨-, became, isSince, past, dates⟩ := still.facts
    · exact .inl covered
    · refine .inr ⟨became, isSince, fun other failure reports suits early => ?_⟩
      cases isNow : options.now with
      | some now => exact dates other failure reports suits early now isNow
      | none => exact early.trans (past.trans passed)
  intro latest relies result after answers
  have dating : Stable (Handles static requests name dir) undisturbed call
      (Inside static dir call (some (options.now.getD (later.elapse choice.elapsed).clock))
        (Dated requests name (options.now.getD (later.elapse choice.elapsed).clock))) :=
    (lasting_inside filed_dated).unmoved
  have still := dating.relied relies dated
  obtain ⟨⟨choice, answered⟩, isTimely⟩ := answers
  have passed := le_clock_elapse latest choice.elapsed
  dsimp only [answer, World.perform] at answered
  split_ifs at answered with fault
  · cases answered
    exact nomatch (show World.failed = Except.ok () from isTimely)
  cases answered
  refine ⟨⟨fun same => same, fun _ _ held => held, fun _ _ => rfl, passed, .inl still.holder,
    fun _ free => absurd (still.holder.symm.trans free) nofun, .inl rfl⟩,
    ends_done lasting_finished ⟨_, still.holder, still.registry, still.lastRead, ?_⟩⟩
  exact Dated.append still.facts named

/-- What the guard has shown: the active member was active before the failure. -/
def Ready (requests : Call → Request) (name : String) (file : List Identity) (call : Call)
    (world : World Call) : Prop :=
  Loaded requests name file world ∧ ∀ failure, (requests call).Reports failure →
    ∀ became, world.since name = some became → became < failure

omit [DecidableEq Call] in
theorem filed_ready : Filed (Ready requests name file call) := by
  intro before after registry since ledger clock ready
  refine ⟨filed_loaded before after registry since ledger clock ready.1, ?_⟩
  rw [since]
  exact ready.2

/-- From the swap of the credentials on. -/
theorem ends_swapRest {members : List Identity}
    (found : requirePool paths file options.pool tool = .ok pool) (nodup : (keysOf file).Nodup)
    (named : pool.name = name) (clocked : ∀ now, options.now = some now → decided = some now)
    (inside : Inside static dir call decided (Ready requests name file call) world) :
    Ends (Handles static requests name dir) (timely requests name) call
      (Finished static requests name dir call) (do
        let fsResult ← .attempt (.swapCredentials pool members target)
        persistActive pool target
        recordSwap options pool target fsResult
        return fsResult) world := by
  have readying : Stable (Handles static requests name dir) undisturbed call
      (Inside static dir call decided (Ready requests name file call)) :=
    (lasting_inside filed_ready).unmoved
  intro later relies result after answers
  have still := readying.relied relies inside
  obtain ⟨⟨choice, answered⟩, -⟩ := answers
  have passed := le_clock_elapse later choice.elapsed
  dsimp only [answer, World.perform] at answered
  split_ifs at answered with fault
  · cases answered
    refine ⟨⟨fun same => same, fun _ _ held => held, fun _ _ => rfl, passed, .inr ⟨rfl, rfl, rfl⟩,
      fun settled => settled, .inl rfl⟩, ends_fail lasting_finished ⟨decided, still.holder,
        still.registry, still.lastRead, still.facts.1.1⟩⟩
  cases answered
  have once : HandledOnce requests (.swapped call pool target
      ((later.elapse choice.elapsed).since pool.name)) := by
    unfold HandledOnce
    split
    · rename_i actor _ _ became isEntry
      obtain ⟨rfl, -, -, isSince⟩ := Entry.swapped.inj isEntry
      intro failure reports
      rw [named] at isSince
      exact still.facts.2 failure reports became isSince
    · trivial
  refine ⟨⟨fun same => same, fun _ _ held => held, fun _ _ => rfl, passed, .inr ⟨rfl, rfl, rfl⟩,
    fun settled => settled, .inr ⟨_, rfl, once⟩⟩, ?_⟩
  show Program.secure _ _ _ _ _ (persistActive pool target >>= fun _ =>
    recordSwap options pool target (World.credentialsResult pool target choice) >>= fun _ =>
      .done _) _
  have loaded : Inside static dir call decided (Loaded requests name file)
      ((later.elapse choice.elapsed).record (.swapped call pool target
        ((later.elapse choice.elapsed).since pool.name))) :=
    ⟨still.holder, still.registry, still.lastRead, still.facts.1⟩
  have noop : (World.credentialsResult pool target choice).noop = true →
      pool.swapPool.active = some target.name :=
    fun same => of_decide_eq_true ((Bool.and_eq_true _ _).mp same).1
  refine Program.secure_bind _ _ (Program.secure_mono ?_ _ _
    (secure_persistActive found nodup named clocked loaded))
  intro outcome last persisted
  cases outcome with
  | error error => exact persisted
  | ok _ =>
    refine Program.secure_bind _ _ (Program.secure_mono ?_ _ _
      (ends_recordSwap named noop persisted))
    intro outcome last finished
    cases outcome with
    | error error => exact finished
    | ok _ => exact fun _ relies => lasting_finished.unmoved.relied relies finished

/-! ### Guards -/

/-- What a call knows once its guard has let it through, or has stopped it. -/
def AfterGuard (static : List Identity) (requests : Call → Request) (name dir : String)
    (call : Call) (decided : Option ℤ) (file : List Identity) :
    Except PoolError Unit → World Call → Prop
  | .ok _, world => Inside static dir call decided (Ready requests name file call) world
  | .error _, world => Finished static requests name dir call world

/-- A guard lets no report through whose failure is in the ledger. -/
def Admits (paths : Paths) (tool : String) (static : List Identity) (requests : Call → Request)
    (name dir : String) (call : Call) (decided : Option ℤ) (options : PerformSwapOptions) : Prop :=
  ∀ file pool world, requirePool paths file options.pool tool = .ok pool → (keysOf file).Nodup →
    pool.name = name → Inside static dir call decided (Loaded requests name file) world →
      (options.guard pool).secure (Handles static requests name dir) undisturbed
        (timely requests name) call (AfterGuard static requests name dir call decided file) world

/-- A call that reports nothing is let through by any guard that looks. -/
theorem admits_of_silent (silent : ∀ failure, ¬(requests call).Reports failure)
    (looks : ∀ pool, (options.guard pool).Uses Looks) :
    Admits paths tool static requests name dir call decided options := by
  intro file pool world _ _ _ inside
  refine Program.secure_mono ?_ _ _ (Program.secure_of_uses
    (show Lasting (Handles static requests name dir) call (Inside static dir call decided
      (Loaded requests name file)) from lasting_inside filed_loaded).unmoved
    (setting_handles.keeps (lasting_inside filed_loaded)) (looks pool) inside)
  intro outcome later inside
  cases outcome with
  | error error => exact ⟨decided, inside.holder, inside.registry, inside.lastRead, inside.facts.1⟩
  | ok _ => exact ⟨inside.holder, inside.registry, inside.lastRead, inside.facts,
      fun failure reports => absurd reports (silent failure)⟩

variable {deciding : Deciding} {activeMember : Identity} {usage : PoolUsage} {reason : SwapReason}
  {poolKey : Option String} {clock : Option ℤ} {targetName : String}

omit [DecidableEq Call] in
/-- The ledger that a guard reads under the lock has no swap as recent as the failure, so the
active member was active before it. -/
theorem ready_of_unhandled {failure : ℤ}
    (isLimited : requests call = .limited poolKey reason clock deciding.options)
    (assumed : deciding.options.assumeLimited = true)
    (isFailure : deciding.options.failureAtMs = some failure)
    (suits : (requests call).Suits pool.swapPool.active)
    (found : requirePool paths file options.pool tool = .ok pool) (nodup : (keysOf file).Nodup)
    (named : pool.name = name) (loaded : Loaded requests name file world)
    (unhandled : ((eventsForPool paths (sortedEvents world.ledger) pool).getLast?.any fun last =>
      decide (failure ≤ last.ts)) = false) : Ready requests name file call world := by
  refine ⟨loaded, fun other reports became isSince => ?_⟩
  obtain ⟨_, _, _, options, isRequest, -, isOther⟩ := reports
  obtain ⟨-, -, -, rfl⟩ := Request.limited.inj (isLimited.symm.trans isRequest)
  obtain rfl : failure = other := Option.some.inj (isFailure.symm.trans isOther)
  by_contra late
  have isActive : activeOf world.registry name = pool.swapPool.active := by
    rw [loaded.2, ← named, activeOf, swapPool_of_requirePool paths tool nodup found]
    rfl
  obtain ⟨event, member, own, recent⟩ := loaded.1 became isSince call failure
    ⟨_, _, _, _, isLimited, assumed, isFailure⟩ (by rw [isActive]; exact suits) (by omega)
  have early := lt_of_not_handled (pairwise_eventsForPool paths world.ledger pool) unhandled
    (mem_eventsForPool paths member (own.trans named.symm))
  omega

/-- The guard of a report whose failure is not in the ledger. -/
theorem secure_guardLedger {failure : ℤ}
    (isLimited : requests call = .limited poolKey reason clock deciding.options)
    (assumed : deciding.options.assumeLimited = true)
    (isFailure : deciding.options.failureAtMs = some failure)
    (suits : (requests call).Suits pool.swapPool.active)
    (found : requirePool paths file options.pool tool = .ok pool) (nodup : (keysOf file).Nodup)
    (named : pool.name = name)
    (inside : Inside static dir call decided (Loaded requests name file) world) :
    (deciding.guardLedger paths pool).secure (Handles static requests name dir) undisturbed
      (timely requests name) call (AfterGuard static requests name dir call decided file) world := by
  have isAt : deciding.failureAtMs = some failure := by
    rw [Deciding.failureAtMs, isFailure]
  have reads : deciding.guardLedger paths pool = (do
      let lines ← .perform .readLedger
      if (eventsForPool paths (sortedEvents lines) pool).getLast?.any fun last =>
          decide (failure ≤ last.ts) then
        .fail (.swapSkipped Deciding.handled)
      else return ()) := by
    rw [Deciding.guardLedger, if_pos assumed, Deciding.alreadyHandled, isAt]
    rfl
  rw [reads]
  have loading : Lasting (Handles static requests name dir) call
      (Inside static dir call decided (Loaded requests name file)) := lasting_inside filed_loaded
  have readying : Lasting (Handles static requests name dir) call
      (Inside static dir call decided (Ready requests name file call)) := lasting_inside filed_ready
  intro later relies lines after answers
  have still := loading.unmoved.relied relies inside
  obtain ⟨⟨choice, answered⟩, -⟩ := answers
  have looked := looked_of_answer (show Looks _ .readLedger from trivial) answered
  have loaded := loading.looked _ _ looked still
  have isLedger : lines = after.ledger := by
    cases answered
    rfl
  refine ⟨looked.handles, ?_⟩
  show Program.secure _ _ _ _ _ (if (eventsForPool paths (sortedEvents lines) pool).getLast?.any
    fun last => decide (failure ≤ last.ts) then _ else _) after
  split_ifs with isHandled
  · exact fun latest relies => lasting_finished.unmoved.relied relies
      ⟨decided, loaded.holder, loaded.registry, loaded.lastRead, loaded.facts.1⟩
  · have ready := ready_of_unhandled isLimited assumed isFailure suits found nodup named loaded.facts
      (by rw [← isLedger]; exact Bool.eq_false_iff.mpr isHandled)
    exact fun latest relies => readying.unmoved.relied relies
      ⟨loaded.holder, loaded.registry, loaded.lastRead, ready⟩

theorem admits_limited
    (isLimited : requests call = .limited poolKey reason clock deciding.options) :
    Admits paths tool static requests name dir call decided
      (deciding.swapOptions paths reason activeMember usage targetName) := by
  by_cases silent : ∀ failure, ¬(requests call).Reports failure
  · exact admits_of_silent silent fun pool => deciding.uses_guard paths pool activeMember
  push Not at silent
  obtain ⟨failure, _, _, _, options, isRequest, assumed, isFailure⟩ := silent
  obtain ⟨-, -, -, rfl⟩ := Request.limited.inj (isLimited.symm.trans isRequest)
  intro file pool world found nodup named inside
  have finished : Finished static requests name dir call world :=
    ⟨decided, inside.holder, inside.registry, inside.lastRead, inside.facts.1⟩
  have readying : Lasting (Handles static requests name dir) call
      (Inside static dir call decided (Ready requests name file call)) := lasting_inside filed_ready
  show (deciding.guard paths activeMember pool).secure _ _ _ _ _ _
  unfold Deciding.guard
  split_ifs with moved unexpected
  · exact fun later relies => lasting_finished.unmoved.relied relies finished
  · exact fun later relies => lasting_finished.unmoved.relied relies finished
  have suits : (requests call).Suits pool.swapPool.active := by
    rw [isLimited]
    intro expected isExpected
    rw [isExpected] at unexpected
    exact not_not.mp fun other => unexpected (decide_eq_true other)
  refine Program.secure_bind _ _ (Program.secure_mono ?_ _ _
    (secure_guardLedger isLimited assumed isFailure suits found nodup named inside))
  intro outcome later guarded
  cases outcome with
  | error error => exact guarded
  | ok _ =>
    have looks : (deciding.guardUsage activeMember >>= fun _ =>
        deciding.guardCooldown paths pool).Uses Looks :=
      Program.uses_bind (deciding.uses_guardUsage activeMember) fun _ =>
        Program.uses_mono Quiet.looks (deciding.uses_guardCooldown paths pool)
    refine Program.secure_mono ?_ _ _ (Program.secure_of_uses readying.unmoved
      (setting_handles.keeps readying) looks guarded)
    intro outcome last ready
    cases outcome with
    | error error =>
      exact ⟨decided, ready.holder, ready.registry, ready.lastRead, ready.facts.1.1⟩
    | ok _ => exact ready

/-! ### The whole swap -/

/-- The key finds this one pool, whoever is active. -/
def Finds (paths : Paths) (tool : String) (static : List Identity) (name dir : String)
    (key : Option String) : Prop :=
  ∀ file pool, frozen file = static → (keysOf file).Nodup →
    requirePool paths file key tool = .ok pool → pool.name = name ∧ poolDirKey paths pool = dir

theorem ends_swapLocked (admits : Admits paths tool static requests name dir call decided options)
    (finds : Finds paths tool static name dir options.pool)
    (clocked : ∀ now, options.now = some now → decided = some now)
    (inside : Inside static dir call decided (Covered requests name) world) :
    Ends (Handles static requests name dir) (timely requests name) call
      (Finished static requests name dir call) (swapLocked paths tool options) world := by
  have holding : Lasting (Handles static requests name dir) call
      (Inside static dir call decided (Covered requests name)) := lasting_inside filed_covered
  refine ends_load_bind setting_handles lasting_finished holding.unmoved
    (fun later time holds => ⟨holds.holder, holds.registry, holds.lastRead,
      filed_covered later _ rfl rfl rfl (le_clock_elapse later time) holds.facts⟩)
    (fun later holds => ⟨decided, holds⟩) inside fun later holds nodup => ?_
  refine ends_check_bind lasting_finished
    ⟨decided, holds.holder, holds.registry, holds.lastRead, holds.facts⟩ fun pool found => ?_
  obtain ⟨named, -⟩ := finds later.registry pool holds.registry nodup found
  refine Program.secure_bind _ _ (Program.secure_mono ?_ _ _
    (admits later.registry pool _ found nodup named
      ⟨holds.holder, holds.registry, holds.lastRead, holds.facts, rfl⟩))
  intro outcome latest guarded
  cases outcome with
  | error error => exact guarded
  | ok _ =>
    have ready : Inside static dir call decided (Ready requests name later.registry call) latest :=
      guarded
    refine ends_check_bind lasting_finished
      ⟨decided, ready.holder, ready.registry, ready.lastRead, ready.facts.1.1⟩ fun target _ => ?_
    exact ends_swapRest found nodup named clocked ready

omit [DecidableEq Call] in
theorem lasting_nothing :
    Lasting (Handles static requests name dir) call fun _ => True :=
  ⟨fun _ _ _ _ => trivial, fun _ _ _ _ => trivial⟩

theorem ends_performPoolSwap
    (admits : Admits paths tool static requests name dir call decided options)
    (finds : Finds paths tool static name dir options.pool)
    (clocked : ∀ now, options.now = some now → decided = some now)
    (outside : Outside static requests name dir call decided world) :
    Ends (Handles static requests name dir) (timely requests name) call (fun _ => True)
      (performPoolSwap paths tool options) world := by
  refine ends_load_bind setting_handles lasting_nothing lasting_outside.unmoved
    (fun later time outside => ⟨outside.registry, outside.settled, outside.lastRead⟩)
    (fun _ _ => trivial) outside fun later outside nodup => ?_
  refine ends_check_bind lasting_nothing trivial fun first found => ?_
  obtain ⟨-, rfl⟩ := finds later.registry first outside.registry nodup found
  have recorded : Outside static requests name (poolDirKey paths first) call decided
      (later.record (.loaded call later.registry)) :=
    ⟨outside.registry, outside.settled, outside.lastRead⟩
  intro latest relies result after answers
  have still := lasting_outside.unmoved.relied relies recorded
  obtain ⟨⟨choice, answered⟩, -⟩ := answers
  have passed := le_clock_elapse latest choice.elapsed
  dsimp only [answer, World.perform] at answered
  split_ifs at answered with fault free
  · cases answered
    exact ⟨⟨fun same => same, fun _ _ held => held, fun _ _ => rfl, passed, .inr ⟨rfl, rfl, rfl⟩,
      fun settled => settled, .inl rfl⟩, fun _ _ => trivial⟩
  cases answered
  have taken : Function.update latest.holder (poolDirKey paths first) (some call)
      (poolDirKey paths first) = some call := Function.update_self _ _ _
  refine ⟨⟨fun same => same, fun other _ held => ?_, fun _ _ => rfl, passed,
    .inr ⟨rfl, rfl, rfl⟩, fun _ isFree => absurd (taken.symm.trans isFree) nofun,
    .inr ⟨_, rfl, trivial⟩⟩, ?_⟩
  · exact nomatch (show none = some other from free.symm.trans held)
  refine Program.secure_andThen _ _ (Program.secure_mono ?_ _ _
    (ends_swapLocked admits finds clocked
      ⟨taken, still.registry, still.lastRead, still.settled free⟩))
  intro outcome last finished later relies result after answers
  obtain ⟨decidedThen, inside⟩ := lasting_finished.unmoved.relied relies finished
  obtain ⟨⟨choice, answered⟩, -⟩ := answers
  have passed := le_clock_elapse later choice.elapsed
  cases answered
  refine ⟨⟨fun same => same, fun other different held => ?_, fun _ _ => rfl, passed,
    .inr ⟨rfl, rfl, rfl⟩, fun _ _ => inside.facts, .inr ⟨_, rfl, trivial⟩⟩,
    Program.secure_ofExcept fun _ _ => trivial⟩
  exact absurd (Option.some.inj (held.symm.trans inside.holder)) different

/-! ### Calls -/

/-- A pool that was found is found again by its name, whoever is active by then. -/
theorem finds_again {key : Option String} (same : frozen file = static)
    (nodup : (keysOf file).Nodup) (found : requirePool paths file key tool = .ok pool) :
    Finds paths tool static pool.name (poolDirKey paths pool) (some pool.name) := by
  intro later other sameThen _ again
  have forgets := forget_eq_of_requirePool paths tool (same.trans sameThen.symm)
    (requirePool_again paths tool nodup found) again
  constructor
  · show other.forget.name = pool.forget.name
    rw [forgets]
  · rw [← poolDirKey_forget, forgets, poolDirKey_forget]

theorem ends_decideOn
    (isLimited : requests call = .limited poolKey reason clock deciding.options)
    (finds : Finds paths tool static name dir (some deciding.pool.name))
    (outside : Outside static requests name dir call (some deciding.now) world) :
    Ends (Handles static requests name dir) (timely requests name) call (fun _ => True)
      (deciding.decideOn paths tool reason activeMember usage) world := by
  unfold Deciding.decideOn
  split_ifs
  · exact fun _ _ => trivial
  · exact fun _ _ => trivial
  refine ends_looks_bind setting_handles lasting_outside
    (Program.uses_mono Quiet.looks (Deciding.uses_recentEvents paths _)) outside
    (fun _ _ => trivial) fun events later outside => ?_
  refine ends_looks_bind setting_handles lasting_outside (deciding.uses_fetchRows events _) outside
    (fun _ _ => trivial) fun rows later outside => ?_
  cases deciding.chooseTarget usage rows with
  | none => exact fun _ _ => trivial
  | some target =>
    have clocked : ∀ now, (deciding.swapOptions paths reason activeMember usage target).now =
        some now → some deciding.now = some now := fun now same => same
    refine Program.secure_andThen _ _ (Program.secure_mono ?_ _ _
      (ends_performPoolSwap (admits_limited isLimited) finds clocked outside))
    intro outcome later _
    match outcome with
    | .ok result => exact fun _ _ => trivial
    | .error (.swapSkipped outcome) => exact fun _ _ => trivial
    | .error (.message text) => exact fun _ _ => trivial

theorem ends_run
    (isLimited : requests call = .limited poolKey reason clock deciding.options)
    (finds : Finds paths tool static name dir (some deciding.pool.name))
    (outside : Outside static requests name dir call (some deciding.now) world) :
    Ends (Handles static requests name dir) (timely requests name) call (fun _ => True)
      (deciding.run paths tool reason) world := by
  refine ends_looks_bind setting_handles lasting_outside
    (Program.uses_mono Quiet.looks (deciding.uses_settledBefore paths)) outside
    (fun _ _ => trivial) fun settled later outside => ?_
  cases settled with
  | some outcome => exact fun _ _ => trivial
  | none =>
    dsimp only
    split
    · exact fun _ _ => trivial
    rename_i activeMember _
    exact ends_looks_bind setting_handles lasting_outside
      (Program.uses_attempt (show Looks _ (.fetchUsage activeMember) from trivial)) outside
      (fun _ _ => trivial) fun usage later outside => ends_decideOn isLimited finds outside

theorem ends_swapIfLimited {options : LimitOptions}
    (isLimited : requests call = .limited poolKey reason clock options)
    (finds : Finds paths tool static name dir poolKey)
    (outside : Outside static requests name dir call decided world) :
    Ends (Handles static requests name dir) (timely requests name) call (fun _ => True)
      (swapIfLimited paths tool poolKey reason clock options) world := by
  refine ends_load_bind setting_handles lasting_nothing lasting_outside.unmoved
    (fun later time outside => ⟨outside.registry, outside.settled, outside.lastRead⟩)
    (fun _ _ => trivial) outside fun later outside nodup => ?_
  refine ends_check_bind lasting_nothing trivial fun pool found => ?_
  obtain ⟨rfl, rfl⟩ := finds later.registry pool outside.registry nodup found
  have again := finds_again outside.registry nodup found
  have recorded : Outside static requests pool.name (poolDirKey paths pool) call decided
      (later.record (.loaded call later.registry)) :=
    ⟨outside.registry, outside.settled, outside.lastRead⟩
  cases pool.swapPool.active with
  | none => exact fun _ _ => trivial
  | some active =>
    dsimp only
    split_ifs
    · exact fun _ _ => trivial
    intro latest relies now after answers
    have still := lasting_outside.unmoved.relied relies recorded
    obtain ⟨⟨choice, answered⟩, -⟩ := answers
    have passed := le_clock_elapse latest choice.elapsed
    cases answered
    refine ⟨⟨fun same => same, fun _ _ held => held,
      fun other different => Function.update_of_ne different _ _, passed, .inr ⟨rfl, rfl, rfl⟩,
      fun settled => settled, .inl rfl⟩, ?_⟩
    refine ends_run isLimited again ⟨still.registry, still.settled, Function.update_self _ _ _⟩

theorem ends_program (finds : Finds paths tool static name dir (requests call).poolKey)
    (outside : Outside static requests name dir call none world) :
    Ends (Handles static requests name dir) (timely requests name) call (fun _ => True)
      ((requests call).program paths tool) world := by
  cases isRequest : requests call with
  | limited poolKey reason clock options =>
    rw [isRequest] at finds
    exact ends_swapIfLimited isRequest finds outside
  | swap poolKey target reason force =>
    rw [isRequest] at finds
    have silent : ∀ failure, ¬(requests call).Reports failure := by
      rintro failure ⟨_, _, _, _, isLimited, -⟩
      exact nomatch (show Request.swap .. = Request.limited .. from isRequest.symm.trans isLimited)
    refine Program.secure_bind _ _ (Program.secure_mono ?_ _ _
      (ends_performPoolSwap (admits_of_silent silent fun _ => trivial) finds
        (fun _ same => nomatch same) outside))
    intro outcome later _
    cases outcome with
    | ok result => exact fun _ _ => trivial
    | error error => trivial

end Steps

/-! ### Runs -/

section Runs

variable {Call : Type} [DecidableEq Call] {paths : Paths} {tool : String} {name : String}
  {requests : Call → Request} {start : World Call}
  {finish : Crew PoolAction (World Call) Call PoolError LimitedOutcome}

theorem finds_of_onePool {static : List Identity} {key : Option String}
    (onePool : ∀ pool, requirePool paths static key tool = .ok pool → pool.name = name) :
    Finds paths tool static name ((dirOf paths static name).getD "") key := by
  intro file pool same nodup found
  have frozenFound := requirePool_frozen paths tool found
  rw [same] at frozenFound
  have named : pool.name = name := onePool pool.forget frozenFound
  refine ⟨named, ?_⟩
  rw [← same, dirOf_frozen, ← named, dirOf_of_requirePool paths tool nodup found]
  rfl

/-- Before the calls: nothing has happened yet. -/
structure World.Fresh (world : World Call) : Prop where
  trace : world.trace = []
  lastRead : world.lastRead = fun _ => none
  since : world.since = fun _ => none

omit [DecidableEq Call] in
theorem handledOnce_steps {static : List Identity} {dir : String} {before after : World Call}
    (steps : Relation.ReflTransGen (Anyone (Handles static requests name dir) undisturbed) before
      after) (first : ∀ entry ∈ before.trace, HandledOnce requests entry) :
    ∀ entry ∈ after.trace, HandledOnce requests entry := by
  induction steps with
  | refl => exact first
  | tail _ last inductionHypothesis =>
    obtain none | ⟨call, handles⟩ := last
    · exact none.elim
    · obtain same | ⟨entry, added, once⟩ := handles.trace
      · rw [same]
        exact inductionHypothesis
      · rw [added]
        exact List.forall_mem_cons.mpr ⟨once, inductionHypothesis⟩

end Runs

/-! ### Two sessions that meet one outage -/

/-- A session reports a hard limit, with evidence that is to be trusted. -/
def reportAt (failure : ℤ) : Request :=
  .limited none .auto none ⟨true, true, none, none, some failure⟩

def outage (first second : ℤ) : Bool → Request
  | false => reportAt first
  | true => reportAt second

/-- Who swapped, from whom, to whom, and since when the member swapped away from was active. -/
def swapsIn : List (Entry Bool) → List (Bool × Option String × String × Option ℤ)
  | [] => []
  | .swapped call pool target since :: entries =>
      (call, pool.swapPool.active, target.name, since) :: swapsIn entries
  | _ :: entries => swapsIn entries

/-- The first session swaps, and then the second one. -/
def oneThenOther : List (Bool × Choice) :=
  List.replicate 18 (false, reading 50) ++ List.replicate 18 (true, reading 50)

theorem reports_outage {first second failure : ℤ} {call : Bool} :
    (outage first second call).Reports failure ↔ failure = if call then second else first := by
  constructor
  · rintro ⟨_, _, _, options, isRequest, -, isFailure⟩
    cases call <;> obtain ⟨-, -, -, rfl⟩ := Request.limited.inj isRequest <;>
      exact (Option.some.inj isFailure).symm
  · rintro rfl
    cases call <;> exact ⟨_, _, _, _, rfl, rfl, rfl⟩

theorem mem_of_swapsIn {swap : Bool × Option String × String × Option ℤ} :
    ∀ {entries : List (Entry Bool)}, swap ∈ swapsIn entries → ∃ pool target,
      .swapped swap.1 pool target swap.2.2.2 ∈ entries ∧ pool.swapPool.active = swap.2.1 := by
  intro entries
  induction entries with
  | nil => exact fun member => nomatch member
  | cons entry entries inductionHypothesis =>
    intro member
    have rest : swap ∈ swapsIn entries → ∃ pool target,
        .swapped swap.1 pool target swap.2.2.2 ∈ entry :: entries ∧
          pool.swapPool.active = swap.2.1 := by
      intro inRest
      obtain ⟨pool, target, found, active⟩ := inductionHypothesis inRest
      exact ⟨pool, target, List.mem_cons_of_mem _ found, active⟩
    cases entry with
    | swapped call pool target since =>
      obtain rfl | inRest := List.mem_cons.mp member
      · exact ⟨pool, target, List.mem_cons_self, rfl⟩
      · exact rest inRest
    | loaded => exact rest member
    | read => exact rest member
    | took => exact rest member
    | freed => exact rest member

/-- An answer, if the step is timely in an outage. -/
def timelyAnswer (first second : ℤ) (call : Bool) (Answer : Type) (action : PoolAction Answer)
    (choice : Choice) (world : World Bool) : Option (Answer × World Bool) :=
  let isTimely : Bool := match action with
    | .saveRegistry _ => (world.lastRead call).all fun decided =>
        [first, second].all fun failure =>
          decide (failure ≤ (world.elapse choice.elapsed).clock → failure ≤ decided)
    | .appendLedger _ => !choice.fault
    | _ => true
  if isTimely then answer call Answer action choice world else none

theorem timely_of_timelyAnswer {first second : ℤ} {call : Bool} {Answer : Type}
    {action : PoolAction Answer} {choice : Choice} {before after : World Bool} {result : Answer}
    (answers : timelyAnswer first second call Answer action choice before = some (result, after)) :
    timely (outage first second) "pool" call Answer action before result after := by
  unfold timelyAnswer at answers
  dsimp only at answers
  split_ifs at answers with isTimely
  refine ⟨⟨choice, answers⟩, ?_⟩
  cases action with
  | saveRegistry file =>
    intro saved decided isDecided other failure reports _ past
    rw [isDecided] at isTimely
    have inTime := of_decide_eq_true (List.all_eq_true.mp isTimely failure (by
      rw [reports_outage.mp reports]
      cases other
      · exact List.mem_cons_self
      · exact List.mem_cons_of_mem _ (List.mem_singleton_self _)))
    refine inTime ?_
    dsimp only [answer, World.perform] at answers
    split_ifs at answers <;> cases answers <;> exact past
  | appendLedger event =>
    dsimp only [answer, World.perform] at answers
    split_ifs at answers with fault
    · rw [fault] at isTimely
      exact nomatch isTimely
    · cases answers
      exact rfl
  | loadRegistry => trivial
  | now => trivial
  | readLedger => trivial
  | fetchUsage => trivial
  | acquire => trivial
  | release => trivial
  | swapCredentials => trivial

theorem onePool_trio {first second : ℤ} (call : Bool) (pool : PoolIdentity)
    (found : requirePool plainPaths (frozen quietWorld.registry)
      (outage first second call).poolKey "claude" = .ok pool) : pool.name = "pool" := by
  have names : (requirePool plainPaths (frozen quietWorld.registry) none "claude").toOption.map
      PoolIdentity.name = some "pool" := by
    decide +kernel
  have isNone : (outage first second call).poolKey = none := by
    cases call <;> rfl
  rw [isNone] at found
  rw [found] at names
  exact Option.some.inj names

end AiSwitcher.Limits
