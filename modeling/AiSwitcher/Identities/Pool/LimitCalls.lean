/-
This file proves what every call on a pool has in common: a registry changes in nothing but its
active members, so a call that looks its pool up again, under the lock of the pool's directory,
finds the pool it had found before; and up to the swap itself a call only looks.
-/

import Mathlib.Data.List.Nodup
import AiSwitcher.Identities.Pool.Limits

namespace AiSwitcher.Limits

open Interrupted

/-! ### Registries up to their active members -/

def SwapPool.forget (pool : SwapPool) : SwapPool := { pool with active := none }

def Identity.forget (identity : Identity) : Identity :=
  { identity with swapPool := identity.swapPool.map SwapPool.forget }

def PoolIdentity.forget (pool : PoolIdentity) : PoolIdentity where
  identity := pool.identity.forget
  swapPool := pool.swapPool.forget
  isSwapPool := by rw [Identity.forget, pool.isSwapPool]; rfl

/-- The registry without its active members. -/
def frozen (file : List Identity) : List Identity := file.map Identity.forget

@[simp] theorem forget_name (identity : Identity) : identity.forget.name = identity.name := rfl
@[simp] theorem forget_aliases (identity : Identity) :
    identity.forget.aliases = identity.aliases := rfl
@[simp] theorem forget_retired (identity : Identity) :
    identity.forget.retired = identity.retired := rfl
@[simp] theorem forget_configDir (identity : Identity) :
    identity.forget.configDir = identity.configDir := rfl
@[simp] theorem forget_identity (pool : PoolIdentity) :
    pool.forget.identity = pool.identity.forget := rfl

theorem asPool_identity (pool : PoolIdentity) : asPool pool.identity = some pool := by
  unfold asPool
  split
  · rename_i swapPool same
    obtain rfl := Option.some.inj (pool.isSwapPool.symm.trans same)
    rfl
  · rename_i same
    exact absurd (pool.isSwapPool.symm.trans same) nofun

theorem identity_of_asPool {identity : Identity} {pool : PoolIdentity}
    (isPool : asPool identity = some pool) : pool.identity = identity := by
  unfold asPool at isPool
  split at isPool
  · exact (Option.some.inj isPool) ▸ rfl
  · exact nomatch isPool

theorem asPool_forget (identity : Identity) :
    asPool identity.forget = (asPool identity).map PoolIdentity.forget := by
  cases isPool : asPool identity with
  | some pool =>
    obtain rfl := identity_of_asPool isPool
    exact asPool_identity pool.forget
  | none =>
    have noPool : identity.swapPool = none := by
      cases same : identity.swapPool with
      | none => rfl
      | some swapPool =>
        rw [asPool_identity ⟨identity, swapPool, same⟩] at isPool
        exact nomatch isPool
    unfold asPool
    split
    · rename_i swapPool same
      rw [Identity.forget, noPool] at same
      exact nomatch same
    · rfl

section Lookups

variable (paths : Paths) (tool : String)

theorem poolDirKey_forget (pool : PoolIdentity) :
    poolDirKey paths pool.forget = poolDirKey paths pool := rfl

theorem poolsFrom_frozen (file : List Identity) :
    ∀ seen, poolsFrom paths seen (frozen file) =
      (poolsFrom paths seen file).map PoolIdentity.forget := by
  induction file with
  | nil => exact fun seen => rfl
  | cons identity rest inductionHypothesis =>
    intro seen
    show poolsFrom paths seen (identity.forget :: frozen rest) = _
    unfold poolsFrom
    rw [asPool_forget]
    cases asPool identity with
    | none => exact inductionHypothesis seen
    | some pool =>
      show (if identity.retired || seen.contains (poolDirKey paths pool) then
          poolsFrom paths seen (frozen rest)
        else pool.forget :: poolsFrom paths (poolDirKey paths pool :: seen) (frozen rest)) = _
      rw [inductionHypothesis, inductionHypothesis]
      dsimp only
      split_ifs <;> rfl

theorem canonicalPool_frozen (file : List Identity) (pool : PoolIdentity) :
    canonicalPool paths (frozen file) pool.forget = (canonicalPool paths file pool).forget := by
  unfold canonicalPool poolsOf
  rw [poolsFrom_frozen, List.find?_map]
  show (Option.map _ ((poolsFrom paths [] file).find? fun candidate =>
    poolDirKey paths candidate == poolDirKey paths pool)).getD _ = _
  cases (poolsFrom paths [] file).find? fun candidate =>
    poolDirKey paths candidate == poolDirKey paths pool <;> rfl

theorem findIdentity_frozen (file : List Identity) (key : String) :
    findIdentityByNameOrAlias (frozen file) key =
      (findIdentityByNameOrAlias file key).map Identity.forget := by
  unfold findIdentityByNameOrAlias frozen
  rw [List.find?_map]
  rfl

/-- Looking a pool up does not depend on who is active. -/
theorem requirePool_frozen {file : List Identity} {key : Option String} {pool : PoolIdentity}
    (found : requirePool paths file key tool = .ok pool) :
    requirePool paths (frozen file) key tool = .ok pool.forget := by
  unfold requirePool at found ⊢
  cases key with
  | some key =>
    dsimp only at found ⊢
    rw [findIdentity_frozen]
    cases looked : findIdentityByNameOrAlias file key with
    | none =>
      rw [looked] at found
      exact nomatch found
    | some identity =>
      rw [looked] at found
      dsimp only [Option.map] at found ⊢
      rw [asPool_forget]
      cases isPool : asPool identity with
      | none =>
        rw [isPool] at found
        exact nomatch found
      | some raw =>
        rw [isPool] at found
        dsimp only at found
        split_ifs at found with retired
        show (if identity.retired = true then _ else
          Except.ok (canonicalPool paths (frozen file) raw.forget)) = _
        rw [if_neg retired, canonicalPool_frozen, Except.ok.inj found]
  | none =>
    dsimp only at found ⊢
    unfold poolsOf at found ⊢
    rw [poolsFrom_frozen]
    match pools : poolsFrom paths [] file with
    | [only] =>
      rw [pools] at found
      rw [← Except.ok.inj found]
      rfl
    | [] =>
      rw [pools] at found
      exact nomatch found
    | first :: second :: rest =>
      rw [pools] at found
      exact nomatch found

theorem mem_poolsFrom {pool : PoolIdentity} {file : List Identity} :
    ∀ {seen}, pool ∈ poolsFrom paths seen file →
      pool.identity ∈ file ∧ pool.identity.retired = false := by
  induction file with
  | nil => exact fun member => nomatch member
  | cons identity rest inductionHypothesis =>
    intro seen member
    unfold poolsFrom at member
    split at member
    · exact ⟨List.mem_cons_of_mem _ (inductionHypothesis member).1, (inductionHypothesis member).2⟩
    · rename_i other isPool
      split_ifs at member with skipped
      · exact ⟨List.mem_cons_of_mem _ (inductionHypothesis member).1,
          (inductionHypothesis member).2⟩
      · obtain rfl | member := List.mem_cons.mp member
        · rw [identity_of_asPool isPool]
          refine ⟨List.mem_cons_self, ?_⟩
          cases retired : identity.retired with
          | false => rfl
          | true => exact absurd (by rw [retired]; rfl) skipped
        · exact ⟨List.mem_cons_of_mem _ (inductionHypothesis member).1,
            (inductionHypothesis member).2⟩

/-- A pool that was looked up is an active pool of the registry, and the first of its directory. -/
theorem requirePool_spec {file : List Identity} {key : Option String} {pool : PoolIdentity}
    (found : requirePool paths file key tool = .ok pool) :
    pool.identity ∈ file ∧ pool.identity.retired = false ∧ canonicalPool paths file pool = pool := by
  have canonical : ∀ raw : PoolIdentity, raw.identity ∈ file → raw.identity.retired = false →
      canonicalPool paths file raw = pool →
        pool.identity ∈ file ∧ pool.identity.retired = false ∧
          canonicalPool paths file pool = pool := by
    intro raw inFile inUse same
    cases first : (poolsOf paths file).find? fun candidate =>
        poolDirKey paths candidate == poolDirKey paths raw with
    | none =>
      have isRaw : canonicalPool paths file raw = raw := by rw [canonicalPool, first]; rfl
      rw [← same, isRaw]
      exact ⟨inFile, inUse, isRaw⟩
    | some candidate =>
      have isCandidate : candidate = pool := by rw [← same, canonicalPool, first]; rfl
      subst isCandidate
      have sameDir := List.find?_some (p := fun candidate : PoolIdentity =>
        poolDirKey paths candidate == poolDirKey paths raw) first
      obtain ⟨member, live⟩ := mem_poolsFrom paths (List.mem_of_find?_eq_some first)
      refine ⟨member, live, ?_⟩
      rw [canonicalPool, eq_of_beq sameDir, first]
      rfl
  unfold requirePool at found
  cases key with
  | some key =>
    dsimp only at found
    split at found
    · exact nomatch found
    rename_i identity looked
    split at found
    · exact nomatch found
    rename_i raw isPool
    split_ifs at found with retired
    obtain rfl := identity_of_asPool isPool
    exact canonical raw (List.mem_of_find?_eq_some looked) (Bool.eq_false_iff.mpr retired)
      (Except.ok.inj found)
  | none =>
    dsimp only at found
    split at found
    · rename_i only pools
      obtain rfl := Except.ok.inj found
      have member : only ∈ poolsOf paths file := by rw [pools]; exact List.mem_singleton_self only
      obtain ⟨inFile, inUse⟩ := mem_poolsFrom paths member
      refine canonical only inFile inUse ?_
      have own : (poolDirKey paths only == poolDirKey paths only) = true := beq_self_eq_true _
      unfold canonicalPool
      rw [pools]
      simp only [List.find?_cons, own, Option.getD_some]
    · exact nomatch found
    · exact nomatch found

/-! ### Unique keys -/

theorem duplicateKey_eq_none {keys : List String} :
    ∀ {seen}, duplicateKey seen keys = none → keys.Nodup ∧ ∀ key ∈ keys, key ∉ seen := by
  induction keys with
  | nil => exact fun _ => ⟨List.nodup_nil, fun _ member => nomatch member⟩
  | cons key rest inductionHypothesis =>
    intro seen none
    unfold duplicateKey at none
    split_ifs at none with occurs
    obtain ⟨nodup, apart⟩ := inductionHypothesis none
    refine ⟨List.nodup_cons.mpr ⟨fun again => apart key again List.mem_cons_self, nodup⟩, ?_⟩
    intro other member inSeen
    obtain rfl | member := List.mem_cons.mp member
    · exact occurs (List.contains_iff_mem.mpr inSeen)
    · exact apart other member (List.mem_cons_of_mem _ inSeen)

/-- With unique keys a name finds the identity that has it. -/
theorem find_of_mem {file : List Identity} {matching : Identity → Bool}
    (nodup : (keysOf file).Nodup) {identity : Identity} (member : identity ∈ file)
    (matches_ : matching identity = true)
    (named : ∀ other, matching other = true →
      identity.name ∈ other.name :: other.aliases) :
    file.find? matching = some identity := by
  induction file with
  | nil => exact nomatch member
  | cons head rest inductionHypothesis =>
    have split : (keysOf (head :: rest)) = (head.name :: head.aliases) ++ keysOf rest := rfl
    rw [split, List.nodup_append] at nodup
    obtain ⟨-, restNodup, apart⟩ := nodup
    by_cases isHead : matching head = true
    · rw [List.find?_cons_of_pos isHead]
      obtain rfl | member := List.mem_cons.mp member
      · rfl
      · have inRest : identity.name ∈ keysOf rest :=
          List.mem_flatMap.mpr ⟨identity, member, List.mem_cons_self⟩
        exact absurd rfl (apart _ (named head isHead) _ inRest)
    · rw [List.find?_cons_of_neg isHead]
      obtain rfl | member := List.mem_cons.mp member
      · exact absurd matches_ isHead
      · exact inductionHypothesis restNodup member

theorem findIdentity_of_mem {file : List Identity} (nodup : (keysOf file).Nodup)
    {identity : Identity} (member : identity ∈ file) :
    findIdentityByNameOrAlias file identity.name = some identity := by
  refine find_of_mem nodup member (by rw [beq_self_eq_true]; rfl) fun other matching => ?_
  obtain same | aliased := (Bool.or_eq_true _ _).mp matching
  · rw [eq_of_beq same]
    exact List.mem_cons_self
  · exact List.mem_cons_of_mem _ (List.contains_iff_mem.mp aliased)

/-- A pool is found again by its name. -/
theorem requirePool_again {file : List Identity} (nodup : (keysOf file).Nodup)
    {key : Option String} {pool : PoolIdentity}
    (found : requirePool paths file key tool = .ok pool) :
    requirePool paths file (some pool.name) tool = .ok pool := by
  obtain ⟨member, inUse, canonical⟩ := requirePool_spec paths tool found
  unfold requirePool
  dsimp only
  rw [findIdentity_of_mem nodup member]
  dsimp only
  rw [asPool_identity]
  dsimp only
  rw [if_neg (by rw [inUse]; exact Bool.false_ne_true), canonical]

/-- A pool that is looked up again in a registry with other active members is the same pool. -/
theorem forget_eq_of_requirePool {earlier later : List Identity}
    (same : frozen earlier = frozen later) {key : Option String} {first second : PoolIdentity}
    (found : requirePool paths earlier key tool = .ok first)
    (again : requirePool paths later key tool = .ok second) : second.forget = first.forget := by
  have before := requirePool_frozen paths tool found
  have after := requirePool_frozen paths tool again
  rw [same] at before
  exact Except.ok.inj (after.symm.trans before)

/-! ### Directories -/

/-- The directory of an identity, as far as a lock is named by it. -/
def dirOf (file : List Identity) (name : String) : Option String :=
  (file.find? fun identity => identity.name == name).map fun identity =>
    paths.resolve identity.configDir

theorem dirOf_frozen (file : List Identity) (name : String) :
    dirOf paths (frozen file) name = dirOf paths file name := by
  unfold dirOf frozen
  rw [List.find?_map, Option.map_map]
  rfl

theorem dirOf_of_requirePool {file : List Identity} (nodup : (keysOf file).Nodup)
    {key : Option String} {pool : PoolIdentity}
    (found : requirePool paths file key tool = .ok pool) :
    dirOf paths file pool.name = some (poolDirKey paths pool) := by
  obtain ⟨member, -, -⟩ := requirePool_spec paths tool found
  have looked : file.find? (fun identity => identity.name == pool.name) = some pool.identity :=
    find_of_mem nodup member (beq_self_eq_true _) fun other same => by
      rw [eq_of_beq same]
      exact List.mem_cons_self
  rw [dirOf, looked]
  rfl

/-- The active member of a pool that was looked up. -/
theorem swapPool_of_requirePool {file : List Identity} (nodup : (keysOf file).Nodup)
    {key : Option String} {pool : PoolIdentity}
    (found : requirePool paths file key tool = .ok pool) :
    (file.find? fun identity => identity.name == pool.name).bind Identity.swapPool =
      some pool.swapPool := by
  obtain ⟨member, -, -⟩ := requirePool_spec paths tool found
  have looked : file.find? (fun identity => identity.name == pool.name) = some pool.identity :=
    find_of_mem nodup member (beq_self_eq_true _) fun other same => by
      rw [eq_of_beq same]
      exact List.mem_cons_self
  rw [looked]
  exact pool.isSwapPool

theorem activeOf_setActive {name target : String} {file : List Identity} {pool : SwapPool}
    (found : (file.find? fun identity => identity.name == name).bind Identity.swapPool =
      some pool) : activeOf (setActive name target file) name = some target := by
  induction file with
  | nil => exact nomatch found
  | cons identity rest inductionHypothesis =>
    unfold activeOf setActive
    by_cases named : identity.name = name
    · have isName : (identity.name == name) = true := beq_iff_eq.mpr named
      rw [if_pos named]
      simp only [List.find?_cons, isName, Option.bind_some] at found ⊢
      rw [found]
      rfl
    · have notName : (identity.name == name) = false := beq_eq_false_iff_ne.mpr named
      rw [if_neg named]
      simp only [List.find?_cons, notName] at found ⊢
      exact inductionHypothesis found

theorem frozen_setActive (name target : String) (file : List Identity) :
    frozen (setActive name target file) = frozen file := by
  induction file with
  | nil => rfl
  | cons identity rest inductionHypothesis =>
    unfold setActive
    split_ifs
    · show Identity.forget _ :: frozen rest = Identity.forget _ :: frozen rest
      congr 1
      unfold Identity.forget
      rw [Option.map_map]
      rfl
    · show Identity.forget identity :: frozen _ = Identity.forget identity :: frozen rest
      rw [inductionHypothesis]

end Lookups

/-! ### The ledger -/

theorem pairwise_eventsForPool (paths : Paths) (lines : List LedgerLine) (pool : PoolIdentity) :
    (eventsForPool paths (sortedEvents lines) pool).Pairwise fun first second =>
      first.ts ≤ second.ts := by
  unfold eventsForPool sortedEvents
  rw [List.pairwise_map]
  exact (List.pairwise_insertionSort (fun first second : SwapEvent => first.ts ≤ second.ts)
    _).filter _

theorem mem_eventsForPool (paths : Paths) {lines : List LedgerLine} {pool : PoolIdentity}
    {event : SwapEvent} (member : .event event ∈ lines) (own : event.pool = pool.name) :
    event ∈ eventsForPool paths (sortedEvents lines) pool := by
  refine List.mem_map.mpr ⟨event, List.mem_filter.mpr ⟨?_, ?_⟩, by rw [← own]⟩
  · exact (List.mem_insertionSort _).mpr (List.mem_filterMap.mpr ⟨.event event, member, rfl⟩)
  · rw [own]
    exact List.contains_iff_mem.mpr List.mem_cons_self

/-- The last event of a sorted list is the latest. -/
theorem le_of_getLast? {events : List SwapEvent} {last event : SwapEvent}
    (sorted : events.Pairwise fun first second => first.ts ≤ second.ts)
    (isLast : events.getLast? = some last) (member : event ∈ events) : event.ts ≤ last.ts := by
  obtain ⟨before, rfl⟩ := List.getLast?_eq_some_iff.mp isLast
  obtain earlier | same := List.mem_append.mp member
  · exact (List.pairwise_append.mp sorted).2.2 event earlier last (List.mem_singleton_self last)
  · rw [List.mem_singleton.mp same]

/-- No automatic swap is more recent than the cooldown allows. -/
theorem Deciding.cooled_of_coolingAfter {deciding : Deciding} {events : List SwapEvent}
    (sorted : events.Pairwise fun first second => first.ts ≤ second.ts)
    (cooled : deciding.coolingAfter events = none) {event : SwapEvent} (member : event ∈ events)
    (automatic : event.reason ≠ .manual) :
    event.ts + deciding.cooldownMs ≤ deciding.now := by
  have kept : event ∈ events.filter fun event => event.reason ≠ .manual :=
    List.mem_filter.mpr ⟨member, decide_eq_true automatic⟩
  unfold coolingAfter at cooled
  split at cooled
  · rename_i none
    rw [List.getLast?_eq_none_iff.mp none] at kept
    exact nomatch kept
  · rename_i last isLast
    split_ifs at cooled with handled cooling
    have latest := le_of_getLast? (sorted.filter _) isLast kept
    omega

/-- No swap is as recent as the failure. -/
theorem lt_of_not_handled {events : List SwapEvent} {failure : ℤ}
    (sorted : events.Pairwise fun first second => first.ts ≤ second.ts)
    (unhandled : (events.getLast?.any fun last => decide (failure ≤ last.ts)) = false)
    {event : SwapEvent} (member : event ∈ events) : event.ts < failure := by
  cases isLast : events.getLast? with
  | none =>
    rw [List.getLast?_eq_none_iff.mp isLast] at member
    exact nomatch member
  | some last =>
    rw [isLast] at unhandled
    have latest := le_of_getLast? sorted isLast member
    have early : ¬failure ≤ last.ts := of_decide_eq_false unhandled
    omega

/-! ### Programs that look -/

/-- An action that changes nothing and reads neither usage nor the clock. -/
def Quiet : (Answer : Type) → PoolAction Answer → Prop
  | _, .loadRegistry | _, .readLedger => True
  | _, _ => False

/-- An action that changes nothing and does not read the clock. -/
def Looks : (Answer : Type) → PoolAction Answer → Prop
  | _, .loadRegistry | _, .readLedger | _, .fetchUsage _ => True
  | _, _ => False

theorem Quiet.looks : ∀ Answer action, Quiet Answer action → Looks Answer action := by
  intro Answer action quiet
  cases action <;> trivial

theorem uses_check {Result : Type} {outcome : Except String Result}
    {permitted : (Answer : Type) → PoolAction Answer → Prop} :
    (check outcome).Uses permitted := Program.uses_ofExcept

theorem uses_loadIdentitiesFile : loadIdentitiesFile.Uses Quiet := by
  refine Program.uses_bind (Program.uses_attempt trivial) fun file => ?_
  cases duplicateKey [] (keysOf file) <;> trivial

/-- A step of a call that changes nothing but what the call knows. -/
structure Looked {Call : Type} (call : Call) (before after : World Call) : Prop where
  registry : after.registry = before.registry
  ledger : after.ledger = before.ledger
  holder : after.holder = before.holder
  since : after.since = before.since
  clock : before.clock ≤ after.clock
  lastRead : after.lastRead = before.lastRead
  trace : after.trace = before.trace ∨
    after.trace = .loaded call before.registry :: before.trace ∨
      ∃ member, after.trace = .read call member :: before.trace

theorem le_clock_elapse {Call : Type} (world : World Call) (elapsed : Nat) :
    world.clock ≤ (world.elapse elapsed).clock :=
  Int.le_add_of_nonneg_right (Int.natCast_nonneg elapsed)

section Steps

variable {Call : Type} [DecidableEq Call] {call : Call} {world after : World Call}

theorem looked_of_answer {Answer : Type} {action : PoolAction Answer} (looks : Looks Answer action)
    {choice : Choice} {result : Answer}
    (answers : answer call Answer action choice world = some (result, after)) :
    Looked call world after := by
  have later := le_clock_elapse world choice.elapsed
  cases action with
  | loadRegistry =>
    dsimp only [answer, World.perform] at answers
    split_ifs at answers <;> cases answers
    · exact ⟨rfl, rfl, rfl, rfl, later, rfl, .inl rfl⟩
    · exact ⟨rfl, rfl, rfl, rfl, later, rfl, .inr (.inl rfl)⟩
  | now => exact looks.elim
  | readLedger =>
    cases answers
    exact ⟨rfl, rfl, rfl, rfl, later, rfl, .inl rfl⟩
  | fetchUsage member =>
    cases answers
    exact ⟨rfl, rfl, rfl, rfl, later, rfl, .inr (.inr ⟨member, rfl⟩)⟩
  | acquire => exact looks.elim
  | release => exact looks.elim
  | swapCredentials => exact looks.elim
  | saveRegistry => exact looks.elim
  | appendLedger => exact looks.elim

theorem trace_of_quiet {Answer : Type} {action : PoolAction Answer} (quiet : Quiet Answer action)
    {choice : Choice} {result : Answer}
    (answers : answer call Answer action choice world = some (result, after)) :
    after.trace = world.trace ∨ after.trace = .loaded call world.registry :: world.trace := by
  cases action with
  | loadRegistry =>
    dsimp only [answer, World.perform] at answers
    split_ifs at answers <;> cases answers
    · exact .inl rfl
    · exact .inr rfl
  | now => exact quiet.elim
  | readLedger =>
    cases answers
    exact .inl rfl
  | fetchUsage => exact quiet.elim
  | acquire => exact quiet.elim
  | release => exact quiet.elim
  | swapCredentials => exact quiet.elim
  | saveRegistry => exact quiet.elim
  | appendLedger => exact quiet.elim

end Steps

namespace Deciding

variable (paths : Paths) (deciding : Deciding) (pool : PoolIdentity)

theorem uses_recentEvents : (recentEvents paths pool).Uses Quiet :=
  Program.uses_bind (Program.uses_perform trivial) fun _ => trivial

theorem uses_alreadyHandled : (deciding.alreadyHandled paths pool).Uses Quiet := by
  unfold alreadyHandled
  cases deciding.failureAtMs with
  | none => trivial
  | some failure => exact Program.uses_bind (uses_recentEvents paths pool) fun _ => trivial

theorem uses_cooldown : (deciding.cooldown paths pool).Uses Quiet :=
  Program.uses_bind (uses_recentEvents paths pool) fun _ => trivial

theorem uses_settledBefore : (deciding.settledBefore paths).Uses Quiet := by
  unfold settledBefore
  split_ifs
  · exact Program.uses_bind (deciding.uses_alreadyHandled paths _) fun _ => trivial
  · exact deciding.uses_cooldown paths _

theorem uses_guardLedger : (deciding.guardLedger paths pool).Uses Quiet := by
  unfold guardLedger
  split_ifs
  · refine Program.uses_bind (deciding.uses_alreadyHandled paths pool) fun isHandled => ?_
    cases isHandled <;> trivial
  · trivial

theorem uses_guardCooldown : (deciding.guardCooldown paths pool).Uses Quiet := by
  unfold guardCooldown
  split_ifs
  · trivial
  · refine Program.uses_bind (deciding.uses_cooldown paths pool) fun again => ?_
    cases again <;> trivial

theorem uses_guardUsage (activeMember : Identity) :
    (deciding.guardUsage activeMember).Uses Looks := by
  unfold guardUsage
  split_ifs
  · refine Program.uses_bind (Program.uses_attempt trivial) fun usage => ?_
    split_ifs <;> trivial
  · trivial

theorem uses_guard (activeMember : Identity) :
    (deciding.guard paths activeMember pool).Uses Looks := by
  unfold guard
  split_ifs
  · trivial
  · trivial
  · exact Program.uses_bind (Program.uses_mono Quiet.looks (deciding.uses_guardLedger paths pool))
      fun _ => Program.uses_bind (deciding.uses_guardUsage activeMember) fun _ =>
        Program.uses_mono Quiet.looks (deciding.uses_guardCooldown paths pool)

theorem uses_memberUsage (name : String) : (deciding.memberUsage name).Uses Looks := by
  unfold memberUsage
  split
  · trivial
  · split_ifs
    · trivial
    · exact Program.uses_bind (Program.uses_attempt trivial) fun _ => trivial

theorem uses_fetchRows (events : List SwapEvent) (names : List String) :
    (deciding.fetchRows events names).Uses Looks := by
  induction names with
  | nil => trivial
  | cons name names inductionHypothesis =>
    exact Program.uses_bind (deciding.uses_memberUsage name) fun _ =>
      Program.uses_bind inductionHypothesis fun _ => trivial

end Deciding

/-! ### Rules for calls -/

section Rules

variable {Call : Type} [DecidableEq Call] (guarantee : Call → World Call → World Call → Prop)
  (behaviour : Call → Behaviour PoolAction (World Call)) (call : Call)

/-- The behaviour is one of the calls' own, and a look keeps the guarantee. -/
structure Setting : Prop where
  chosen : ∀ Answer (action : PoolAction Answer) before result after,
    behaviour call Answer action before result after →
      Chosen answer call Answer action before result after
  looks : ∀ before after, Looked call before after → guarantee call before after

/-- Neither the others nor a look of the call itself ends the assertion. -/
structure Lasting (assertion : World Call → Prop) : Prop where
  unmoved : Stable guarantee undisturbed call assertion
  looked : ∀ before after, Looked call before after → assertion before → assertion after

/-- The program keeps the guarantee and ends in the assertion, with a result or an error. -/
abbrev Ends {Result : Type} (wanted : World Call → Prop) (program : PoolProgram Result)
    (world : World Call) : Prop :=
  program.secure guarantee undisturbed behaviour call (fun _ => wanted) world

variable {guarantee} {behaviour} {call} {assertion wanted : World Call → Prop}
  {Result Next : Type} {world : World Call}

theorem Setting.keeps (setting : Setting guarantee behaviour call)
    (lasting : Lasting guarantee call assertion) (Answer : Type) (action : PoolAction Answer)
    (looks : Looks Answer action) (before : World Call) (result : Answer) (after : World Call)
    (holds : assertion before) (answers : behaviour call Answer action before result after) :
    guarantee call before after ∧ assertion after := by
  obtain ⟨choice, answered⟩ := setting.chosen _ _ _ _ _ answers
  have looked := looked_of_answer looks answered
  exact ⟨setting.looks _ _ looked, lasting.looked _ _ looked holds⟩

/-- Going on from a program that looks. -/
theorem ends_looks_bind (setting : Setting guarantee behaviour call)
    (lasting : Lasting guarantee call assertion) {program : PoolProgram Next}
    {next : Next → PoolProgram Result} (looks : program.Uses Looks) (holds : assertion world)
    (implies : ∀ later, assertion later → wanted later)
    (goesOn : ∀ result later, assertion later →
      Ends guarantee behaviour call wanted (next result) later) :
    Ends guarantee behaviour call wanted (program >>= next) world :=
  Program.secure_uses_bind lasting.unmoved (setting.keeps lasting) looks holds goesOn
    fun _ later still => implies later still

omit [DecidableEq Call] in
theorem ends_done (lasting : Lasting guarantee call wanted) {result : Result}
    (holds : wanted world) :
    Ends guarantee behaviour call wanted (.done result : PoolProgram Result) world :=
  fun _ relies => lasting.unmoved.relied relies holds

omit [DecidableEq Call] in
theorem ends_fail (lasting : Lasting guarantee call wanted) {error : PoolError}
    (holds : wanted world) :
    Ends guarantee behaviour call wanted (.fail error : PoolProgram Result) world :=
  fun _ relies => lasting.unmoved.relied relies holds

omit [DecidableEq Call] in
/-- Going on after a check of values. -/
theorem ends_check_bind (lasting : Lasting guarantee call wanted) {outcome : Except String Next}
    {next : Next → PoolProgram Result} (holds : wanted world)
    (goesOn : ∀ result, outcome = .ok result →
      Ends guarantee behaviour call wanted (next result) world) :
    Ends guarantee behaviour call wanted (check outcome >>= next) world := by
  cases outcome with
  | ok result => exact goesOn result rfl
  | error message => exact ends_fail lasting holds

/-- Going on with a registry that was loaded. -/
theorem secure_load_bind (setting : Setting guarantee behaviour call)
    (lasting : Lasting guarantee call wanted)
    (unmoved : Stable guarantee undisturbed call assertion)
    (timeless : ∀ later time, assertion later → assertion (later.elapse time))
    (implies : ∀ later, assertion later → wanted later)
    {post : Except PoolError Result → World Call → Prop}
    (failed : ∀ error later, wanted later → post (.error error) later)
    {next : List Identity → PoolProgram Result} (holds : assertion world)
    (goesOn : ∀ later, assertion later → (keysOf later.registry).Nodup →
      (next later.registry).secure guarantee undisturbed behaviour call post
        (later.record (.loaded call later.registry))) :
    (loadIdentitiesFile >>= next).secure guarantee undisturbed behaviour call post world := by
  intro later relies result after answers
  obtain ⟨choice, answered⟩ := setting.chosen _ _ _ _ _ answers
  have looked := looked_of_answer (show Looks _ .loadRegistry from trivial) answered
  refine ⟨setting.looks _ _ looked, ?_⟩
  have still := unmoved.relied relies holds
  have wants := lasting.looked _ _ looked (implies _ still)
  have fails : ∀ error latest, Rely guarantee undisturbed call after latest →
      post (.error error) latest :=
    fun error latest relies => failed error latest (lasting.unmoved.relied relies wants)
  dsimp only [answer, World.perform] at answered
  split_ifs at answered with fault
  · cases answered
    exact fails _
  · cases answered
    dsimp only [Bind.bind, Program.bind, Program.ofExcept]
    cases unique : duplicateKey [] (keysOf (later.elapse choice.elapsed).registry) with
    | some key => exact fails _
    | none =>
      exact goesOn (later.elapse choice.elapsed) (timeless _ _ still)
        (duplicateKey_eq_none unique).1

theorem ends_load_bind (setting : Setting guarantee behaviour call)
    (lasting : Lasting guarantee call wanted)
    (unmoved : Stable guarantee undisturbed call assertion)
    (timeless : ∀ later time, assertion later → assertion (later.elapse time))
    (implies : ∀ later, assertion later → wanted later)
    {next : List Identity → PoolProgram Result} (holds : assertion world)
    (goesOn : ∀ later, assertion later → (keysOf later.registry).Nodup →
      Ends guarantee behaviour call wanted (next later.registry)
        (later.record (.loaded call later.registry))) :
    Ends guarantee behaviour call wanted (loadIdentitiesFile >>= next) world :=
  secure_load_bind setting lasting unmoved timeless implies (fun _ _ wants => wants) holds goesOn

end Rules

/-! ### A pool of three members -/

def plainPaths : Paths := ⟨id, id⟩

def plainMember (name : String) : Identity := ⟨name, "/" ++ name, [], false, none⟩

def trio : List Identity :=
  [⟨"pool", "/pool", [], false, some ⟨["a", "b", "c"], some "a", [], none⟩⟩, plainMember "a",
    plainMember "b", plainMember "c"]

/-- The pool with its first member active, before any call. -/
def quietWorld : World Bool where
  registry := trio
  ledger := []
  holder := fun _ => none
  clock := 1000
  since := fun _ => none
  lastRead := fun _ => none
  trace := []

/-- An action that succeeds ten milliseconds later; a reading shows this utilisation. -/
def reading (percent : ℚ) : Choice :=
  ⟨10, false, ⟨.live, some percent, [], false, none⟩, false, .written, []⟩

end AiSwitcher.Limits
