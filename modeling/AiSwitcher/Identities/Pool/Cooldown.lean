/-
This file proves that automatic swaps keep the cooldown: whatever the order in which any number
of processes act, an automatic swap of a pool is recorded no earlier than the cooldown after
every automatic swap of that pool in the ledger, and the credentials are swapped only for a call
that, with the pool's lock in hand, has found the member still active whose reading it decided on.

A call relies on the lock. As long as it holds the lock of the pool's directory no other call
records a swap of that pool, so what its guard has found in the ledger stays true until its own
swap is recorded.
-/

import AiSwitcher.Identities.Pool.LimitCalls

namespace AiSwitcher.Limits

open Interrupted

/-! ### What is promised -/

/-- The times of the automatic swaps of a pool. -/
def automaticSwaps (name : String) (lines : List LedgerLine) : List ℤ :=
  ((lines.filterMap LedgerLine.event?).filter fun event =>
    event.pool = name ∧ event.reason ≠ .manual).map SwapEvent.ts

/-- An event comes the cooldown after every automatic swap before it, if it is one itself. -/
def Cooled (cooldownMs : ℤ) (event : SwapEvent) (earlier : List LedgerLine) : Prop :=
  event.reason ≠ .manual → ∀ ts ∈ automaticSwaps event.pool earlier, ts + cooldownMs ≤ event.ts

section Histories

variable {Call : Type} [DecidableEq Call]

/-- What one call has done, the latest entry first. -/
def ownEntries (call : Call) (trace : List (Entry Call)) : List (Entry Call) :=
  trace.filter fun entry => entry.call = call

/-- The first reading of a call is of this member. -/
def FirstReading (call : Call) (name : String) (entries : List (Entry Call)) : Prop :=
  ∃ later member earlier, entries = later ++ .read call member :: earlier ∧
    member.name = name ∧ ∀ other, .read call other ∉ earlier

/-- The call has taken the lock of the directory, has not let go of it, and has then found the pool
in the registry, with the member active that it had read first. -/
def Confirmed (paths : Paths) (tool : String) (call : Call) (pool : PoolIdentity)
    (entries : List (Entry Call)) : Prop :=
  ∃ active between before file, pool.swapPool.active = some active ∧
    entries = between ++ .took call (poolDirKey paths pool) :: before ∧
    (∀ dir, .freed call dir ∉ between) ∧ .loaded call file ∈ between ∧
    requirePool paths file (some pool.name) tool = .ok pool ∧ FirstReading call active before

/-- A call of `swapIfLimited` swaps only what it has confirmed. -/
def Sound (paths : Paths) (tool : String) (requests : Call → Request) (earlier : List (Entry Call)) :
    Entry Call → Prop
  | .swapped call pool _ _ =>
      match requests call with
      | .limited _ _ _ _ => Confirmed paths tool call pool (ownEntries call earlier)
      | .swap _ _ _ _ => True
  | _ => True

/-- Automatic swaps without evidence of a hard limit, and manual swaps. -/
def Request.Cools (cooldownMs : ℤ) : Request → Prop
  | .limited _ _ _ options =>
      options.assumeLimited = false ∧ options.cooldownMs.getD SWAP_COOLDOWN_MS = cooldownMs
  | .swap _ _ reason _ => reason = .manual

theorem ownEntries_cons {call : Call} {entry : Entry Call} {trace : List (Entry Call)} :
    ownEntries call (entry :: trace) =
      if entry.call = call then entry :: ownEntries call trace else ownEntries call trace := by
  unfold ownEntries
  rw [List.filter_cons]
  simp only [decide_eq_true_eq]

theorem ownEntries_own (call : Call) (entry : Entry Call) {trace : List (Entry Call)}
    (own : entry.call = call) : ownEntries call (entry :: trace) = entry :: ownEntries call trace := by
  rw [ownEntries_cons, if_pos own]

end Histories

/-! ### What a step of a call keeps -/

section Steps

variable {Call : Type} [DecidableEq Call] (paths : Paths) (tool : String)
  (static : List Identity) (cooldownMs : ℤ) (requests : Call → Request)

structure Kept (call : Call) (before after : World Call) : Prop where
  registry : frozen before.registry = static → frozen after.registry = static
  holder : ∀ dir other, other ≠ call → before.holder dir = some other →
    after.holder dir = some other
  ledger : after.ledger = before.ledger ∨ ∃ event dir,
    after.ledger = before.ledger ++ [.event event] ∧ dirOf paths static event.pool = some dir ∧
      before.holder dir = some call ∧ Cooled cooldownMs event before.ledger
  trace : after.trace = before.trace ∨ ∃ entry,
    after.trace = entry :: before.trace ∧ entry.call = call ∧
      Sound paths tool requests before.trace entry

/-- The program keeps this, whatever the others do, and ends in `post`. -/
abbrev Keeps {Result : Type} (call : Call) (post : Except PoolError Result → World Call → Prop)
    (program : PoolProgram Result) (world : World Call) : Prop :=
  program.secure (Kept paths tool static cooldownMs requests) undisturbed (Chosen answer) call post
    world

variable {paths tool static cooldownMs requests} {call : Call} {world after : World Call}

abbrev Unmoved (paths : Paths) (tool : String) (static : List Identity) (cooldownMs : ℤ)
    (requests : Call → Request) (call : Call) (assertion : World Call → Prop) : Prop :=
  Stable (Kept paths tool static cooldownMs requests) undisturbed call assertion

theorem Looked.kept (looked : Looked call world after) :
    Kept paths tool static cooldownMs requests call world after where
  registry := fun same => by rw [looked.registry]; exact same
  holder := fun dir other _ held => by rw [looked.holder]; exact held
  ledger := .inl looked.ledger
  trace := by
    obtain same | loaded | ⟨member, read⟩ := looked.trace
    · exact .inl same
    · exact .inr ⟨_, loaded, rfl, trivial⟩
    · exact .inr ⟨_, read, rfl, trivial⟩

theorem kept_of_now {injected : Option ℤ} {choice : Choice} {result : ℤ}
    (answers : answer call ℤ (.now injected) choice world = some (result, after)) :
    Kept paths tool static cooldownMs requests call world after := by
  cases answers
  exact ⟨fun same => same, fun _ _ _ held => held, .inl rfl, .inl rfl⟩

/-! ### What the others leave alone -/

theorem unmoved_registry :
    Unmoved paths tool static cooldownMs requests call fun world =>
      frozen world.registry = static := by
  rintro before after (none | ⟨other, -, kept⟩) same
  · exact none.elim
  · exact kept.registry same

theorem unmoved_holder (dir : String) :
    Unmoved paths tool static cooldownMs requests call fun world =>
      world.holder dir = some call := by
  rintro before after (none | ⟨other, different, kept⟩) held
  · exact none.elim
  · exact kept.holder dir call (fun same => different same.symm) held

theorem unmoved_entries (assertion : List (Entry Call) → Prop) :
    Unmoved paths tool static cooldownMs requests call fun world =>
      assertion (ownEntries call world.trace) := by
  rintro before after (none | ⟨other, different, kept⟩) holds
  · exact none.elim
  · obtain same | ⟨entry, added, by_other, -⟩ := kept.trace
    · rw [same]
      exact holds
    · rw [added, ownEntries_cons, if_neg fun own => different (by_other.symm.trans own)]
      exact holds

theorem automaticSwaps_append (name : String) (lines : List LedgerLine) (event : SwapEvent) :
    automaticSwaps name (lines ++ [.event event]) = automaticSwaps name lines ++
      if event.pool = name ∧ event.reason ≠ .manual then [event.ts] else [] := by
  unfold automaticSwaps
  rw [List.filterMap_append, List.filter_append, List.map_append]
  congr 1
  show List.map SwapEvent.ts ([event].filter _) = _
  rw [List.filter_cons]
  simp only [decide_eq_true_eq]
  split_ifs <;> rfl

/-- While a call holds the lock of a pool's directory nobody else records a swap of the pool. -/
theorem unmoved_ledger {name dir : String} (home : dirOf paths static name = some dir)
    (assertion : List ℤ → Prop) :
    Unmoved paths tool static cooldownMs requests call fun world =>
      world.holder dir = some call ∧ assertion (automaticSwaps name world.ledger) := by
  intro before after others holds
  refine ⟨unmoved_holder dir before after others holds.1, ?_⟩
  obtain none | ⟨other, different, kept⟩ := others
  · exact none.elim
  obtain same | ⟨event, otherDir, added, otherHome, held, -⟩ := kept.ledger
  · rw [same]
    exact holds.2
  · have notOwn : event.pool ≠ name := fun own => by
      rw [own, home] at otherHome
      obtain rfl := Option.some.inj otherHome
      exact different (Option.some.inj (held.symm.trans holds.1))
    rw [added, automaticSwaps_append, if_neg fun own => notOwn own.1, List.append_nil]
    exact holds.2

variable {Result Next : Type}

theorem setting :
    Setting (Kept paths tool static cooldownMs requests) (fun call => Chosen answer call) call where
  chosen := fun _ _ _ _ _ answers => answers
  looks := fun _ _ looked => looked.kept

/-! ### Under the lock -/

/-- The call holds the lock of the pool, and its swap would be recorded in time. -/
structure Swapping (paths : Paths) (static : List Identity) (cooldownMs : ℤ) (call : Call)
    (dir : String) (options : PerformSwapOptions) (pool : PoolIdentity) (world : World Call) :
    Prop where
  holder : world.holder dir = some call
  registry : frozen world.registry = static
  home : dirOf paths static pool.name = some dir
  cooled : options.reason ≠ .manual → ∃ now, options.now = some now ∧
    ∀ ts ∈ automaticSwaps pool.name world.ledger, ts + cooldownMs ≤ now

variable {dir : String} {options : PerformSwapOptions} {pool : PoolIdentity} {target : Identity}

theorem lasting_holder (dir : String) :
    Lasting (Kept paths tool static cooldownMs requests) call fun world =>
      world.holder dir = some call where
  unmoved := unmoved_holder dir
  looked := fun before after looked held => by rw [looked.holder]; exact held

omit [DecidableEq Call] in
theorem Swapping.looked (swapping : Swapping paths static cooldownMs call dir options pool world)
    (looked : Looked call world after) :
    Swapping paths static cooldownMs call dir options pool after where
  holder := by rw [looked.holder]; exact swapping.holder
  registry := by rw [looked.registry]; exact swapping.registry
  home := swapping.home
  cooled := by rw [looked.ledger]; exact swapping.cooled

theorem lasting_swapping :
    Lasting (Kept paths tool static cooldownMs requests) call
      (Swapping paths static cooldownMs call dir options pool) where
  unmoved := fun before after others swapping => {
    holder := unmoved_holder dir _ _ others swapping.holder
    registry := unmoved_registry _ _ others swapping.registry
    home := swapping.home
    cooled := fun automatic => by
      obtain ⟨now, same, cooled⟩ := swapping.cooled automatic
      exact ⟨now, same, (unmoved_ledger swapping.home
        (fun times => ∀ ts ∈ times, ts + cooldownMs ≤ now) _ _ others
          ⟨swapping.holder, cooled⟩).2⟩ }
  looked := fun _ _ looked swapping => swapping.looked looked

theorem keeps_persistActive (swapping : Swapping paths static cooldownMs call dir options pool world) :
    Keeps paths tool static cooldownMs requests call
      (fun _ => Swapping paths static cooldownMs call dir options pool)
      (persistActive pool target) world := by
  refine ends_load_bind setting lasting_swapping lasting_swapping.unmoved
    (fun later time holds => ⟨holds.holder, holds.registry, holds.home, holds.cooled⟩)
    (fun _ holds => holds) swapping fun later holds _ => ?_
  have recorded : Swapping paths static cooldownMs call dir options pool
      (later.record (.loaded call later.registry)) :=
    ⟨holds.holder, holds.registry, holds.home, holds.cooled⟩
  split
  · exact ends_done lasting_swapping recorded
  split_ifs
  · exact ends_done lasting_swapping recorded
  intro latest relies result after answers
  obtain ⟨choice, answered⟩ := answers
  have still := lasting_swapping.unmoved.relied relies recorded
  dsimp only [answer, World.perform] at answered
  split_ifs at answered with fault
  · cases answered
    exact ⟨⟨fun same => same, fun _ _ _ held => held, .inl rfl, .inl rfl⟩,
      ends_fail lasting_swapping ⟨still.holder, still.registry, still.home, still.cooled⟩⟩
  · cases answered
    have same : frozen (setActive pool.name target.name later.registry) = static := by
      rw [frozen_setActive]
      exact holds.registry
    exact ⟨⟨fun _ => same, fun _ _ _ held => held, .inl rfl, .inl rfl⟩,
      ends_done lasting_swapping ⟨still.holder, same, still.home, still.cooled⟩⟩

theorem keeps_recordSwap {fsResult : SwapResult}
    (swapping : Swapping paths static cooldownMs call dir options pool world) :
    Keeps paths tool static cooldownMs requests call (fun _ later => later.holder dir = some call)
      (recordSwap options pool target fsResult) world := by
  unfold recordSwap
  split_ifs
  · exact ends_done (lasting_holder dir) swapping.holder
  intro later relies ts after answers
  obtain ⟨choice, answered⟩ := answers
  have still := lasting_swapping.unmoved.relied relies swapping
  refine ⟨kept_of_now answered, ?_⟩
  cases answered
  have kept : Swapping paths static cooldownMs call dir options pool
      ((later.elapse choice.elapsed).readClock call
        (options.now.getD (later.elapse choice.elapsed).clock)) :=
    ⟨still.holder, still.registry, still.home, still.cooled⟩
  intro latest relies result last answers
  obtain ⟨choice, answered⟩ := answers
  have still := lasting_swapping.unmoved.relied relies kept
  dsimp only [answer, World.perform] at answered
  split_ifs at answered with fault
  · cases answered
    exact ⟨⟨fun same => same, fun _ _ _ held => held, .inl rfl, .inl rfl⟩,
      ends_fail (lasting_holder dir) still.holder⟩
  · cases answered
    refine ⟨⟨fun same => same, fun _ _ _ held => held,
      .inr ⟨_, dir, rfl, still.home, still.holder, ?_⟩, .inl rfl⟩,
      ends_done (lasting_holder dir) still.holder⟩
    intro automatic time member
    obtain ⟨decided, isNow, cooled⟩ := still.cooled automatic
    show time + cooldownMs ≤ options.now.getD _
    rw [isNow]
    exact cooled time member

/-- From the swap of the credentials on. -/
theorem keeps_swapRest {members : List Identity}
    (swapping : Swapping paths static cooldownMs call dir options pool world)
    (sound : ∀ later, Rely (Kept paths tool static cooldownMs requests) undisturbed call world later →
      ∀ since, Sound paths tool requests later.trace (.swapped call pool target since)) :
    Keeps paths tool static cooldownMs requests call (fun _ later => later.holder dir = some call)
      (do
        let fsResult ← .attempt (.swapCredentials pool members target)
        persistActive pool target
        recordSwap options pool target fsResult
        return fsResult) world := by
  intro later relies result after answers
  obtain ⟨choice, answered⟩ := answers
  have still := lasting_swapping.unmoved.relied relies swapping
  dsimp only [answer, World.perform] at answered
  split_ifs at answered with fault
  · cases answered
    exact ⟨⟨fun same => same, fun _ _ _ held => held, .inl rfl, .inl rfl⟩,
      ends_fail (lasting_holder dir) still.holder⟩
  · cases answered
    refine ⟨⟨fun same => same, fun _ _ _ held => held, .inl rfl,
      .inr ⟨_, rfl, rfl, sound later relies _⟩⟩, ?_⟩
    have moved : Swapping paths static cooldownMs call dir options pool
        ((later.elapse choice.elapsed).record (.swapped call pool target
          ((later.elapse choice.elapsed).since pool.name))) :=
      ⟨still.holder, still.registry, still.home, still.cooled⟩
    show Program.secure _ _ _ _ _ (persistActive pool target >>= fun _ =>
      recordSwap options pool target _ >>= fun _ => .done _) _
    refine Program.secure_bind _ _ (Program.secure_mono ?_ _ _ (keeps_persistActive moved))
    intro outcome last swapped
    cases outcome with
    | error error => exact swapped.holder
    | ok _ =>
      refine Program.secure_bind _ _ (Program.secure_mono ?_ _ _ (keeps_recordSwap swapped))
      intro outcome last held
      cases outcome with
      | error error => exact held
      | ok _ => exact fun _ relies => (unmoved_holder dir).relied relies held

/-! ### The whole swap -/

/-- What a guard has to show for the swap to go on: whatever follows once the swap may be carried
out, follows the guard. -/
def Guards (paths : Paths) (tool : String) (static : List Identity) (cooldownMs : ℤ)
    (requests : Call → Request) (call : Call) (options : PerformSwapOptions)
    (history : List (Entry Call) → Prop) : Prop :=
  ∀ file pool before world (rest : Unit → PoolProgram SwapResult),
    requirePool paths file options.pool tool = .ok pool → (keysOf file).Nodup → history before →
    dirOf paths static pool.name = some (poolDirKey paths pool) →
    world.holder (poolDirKey paths pool) = some call → frozen world.registry = static →
    ownEntries call world.trace = .loaded call file :: .took call (poolDirKey paths pool) :: before →
    (∀ later, Swapping paths static cooldownMs call (poolDirKey paths pool) options pool later →
      (∀ target since, Sound paths tool requests later.trace (.swapped call pool target since)) →
      Keeps paths tool static cooldownMs requests call
        (fun _ world => world.holder (poolDirKey paths pool) = some call) (rest ()) later) →
    Keeps paths tool static cooldownMs requests call
      (fun _ world => world.holder (poolDirKey paths pool) = some call)
      (options.guard pool >>= rest) world

theorem sound_own {earlier later : List (Entry Call)} {since : Option ℤ}
    (same : ownEntries call later = ownEntries call earlier)
    (sound : Sound paths tool requests earlier (.swapped call pool target since)) :
    Sound paths tool requests later (.swapped call pool target since) := by
  unfold Sound at sound ⊢
  dsimp only at sound ⊢
  rw [same]
  exact sound

theorem keeps_swapLocked {history : List (Entry Call) → Prop} {before : List (Entry Call)}
    {first : PoolIdentity} {file : List Identity}
    (guards : Guards paths tool static cooldownMs requests call options history)
    (found : requirePool paths file options.pool tool = .ok first)
    (same : frozen file = static) (past : history before)
    (held : world.holder (poolDirKey paths first) = some call)
    (registry : frozen world.registry = static)
    (entries : ownEntries call world.trace = .took call (poolDirKey paths first) :: before) :
    Keeps paths tool static cooldownMs requests call
      (fun _ later => later.holder (poolDirKey paths first) = some call)
      (swapLocked paths tool options) world := by
  refine ends_load_bind setting (lasting_holder _)
    (((unmoved_holder (poolDirKey paths first)).and unmoved_registry).and
      (unmoved_entries fun entries => entries = .took call (poolDirKey paths first) :: before))
    (fun _ _ holds => holds) (fun _ holds => holds.1.1) ⟨⟨held, registry⟩, entries⟩
    fun later ⟨⟨held, registry⟩, entries⟩ nodup => ?_
  refine ends_check_bind (lasting_holder _) held fun pool again => ?_
  have forgets := forget_eq_of_requirePool paths tool (same.trans registry.symm) found again
  have sameDir : poolDirKey paths pool = poolDirKey paths first := by
    rw [← poolDirKey_forget, forgets, poolDirKey_forget]
  have home : dirOf paths static pool.name = some (poolDirKey paths pool) := by
    rw [← registry, dirOf_frozen]
    exact dirOf_of_requirePool paths tool nodup again
  rw [← sameDir] at held entries ⊢
  have own : ownEntries call (later.record (.loaded call later.registry)).trace =
      .loaded call later.registry :: .took call (poolDirKey paths pool) :: before := by
    show ownEntries call (.loaded call later.registry :: later.trace) = _
    rw [ownEntries_own call (.loaded call later.registry) rfl, entries]
  refine guards later.registry pool before _ _ again nodup past home held registry own ?_
  intro latest swapping sound
  refine ends_check_bind (lasting_holder _) swapping.holder fun target _ => ?_
  refine keeps_swapRest swapping fun last relies since => ?_
  exact sound_own ((unmoved_entries fun entries =>
    entries = ownEntries call latest.trace).relied relies rfl) (sound target since)

/-- Nothing is left to promise once the lock is free. -/
theorem lasting_true :
    Lasting (Kept paths tool static cooldownMs requests) call fun _ => True :=
  ⟨fun _ _ _ _ => trivial, fun _ _ _ _ => trivial⟩

theorem keeps_performPoolSwap {history : List (Entry Call) → Prop}
    (guards : Guards paths tool static cooldownMs requests call options history)
    (loading : ∀ file before, history before → history (.loaded call file :: before))
    (past : history (ownEntries call world.trace)) (registry : frozen world.registry = static) :
    Keeps paths tool static cooldownMs requests call (fun _ _ => True)
      (performPoolSwap paths tool options) world := by
  refine ends_load_bind setting lasting_true
    (unmoved_registry.and (unmoved_entries history)) (fun _ _ holds => holds)
    (fun _ _ => trivial) ⟨registry, past⟩ fun later ⟨registry, past⟩ _ => ?_
  refine ends_check_bind lasting_true trivial fun first found => ?_
  have own : history (ownEntries call (.loaded call later.registry :: later.trace)) := by
    rw [ownEntries_own call (.loaded call later.registry) rfl]
    exact loading _ _ past
  intro latest relies result after answers
  obtain ⟨registryThen, pastThen⟩ := Stable.relied
    (unmoved_registry.and (unmoved_entries history)) relies ⟨registry, own⟩
  obtain ⟨choice, answered⟩ := answers
  dsimp only [answer, World.perform] at answered
  split_ifs at answered with fault free
  · cases answered
    exact ⟨⟨fun same => same, fun _ _ _ held => held, .inl rfl, .inl rfl⟩, ends_fail lasting_true
      trivial⟩
  cases answered
  have others : ∀ dir other, other ≠ call → latest.holder dir = some other →
      Function.update latest.holder (poolDirKey paths first) (some call) dir = some other := by
    intro dir other _ held
    by_cases same : dir = poolDirKey paths first
    · subst same
      exact nomatch (show none = some other from free.symm.trans held)
    · rw [Function.update_of_ne same]
      exact held
  refine ⟨⟨fun same => same, others, .inl rfl, .inr ⟨_, rfl, rfl, trivial⟩⟩, ?_⟩
  have entries : ownEntries call (.took call (poolDirKey paths first) :: latest.trace) =
      .took call (poolDirKey paths first) :: ownEntries call latest.trace := ownEntries_own call _ rfl
  refine Program.secure_andThen _ _ (Program.secure_mono ?_ _ _
    (keeps_swapLocked guards found registry pastThen (Function.update_self _ _ _) registryThen
      entries))
  intro outcome last held later relies result after answers
  have stillHeld := (unmoved_holder _).relied relies held
  obtain ⟨choice, answered⟩ := answers
  cases answered
  refine ⟨⟨fun same => same, ?_, .inl rfl, .inr ⟨_, rfl, rfl, trivial⟩⟩,
    Program.secure_ofExcept fun _ _ => trivial⟩
  intro dir other different held
  show (if later.holder (poolDirKey paths first) = some call then
    Function.update later.holder (poolDirKey paths first) none else later.holder) dir = some other
  rw [if_pos stillHeld]
  by_cases same : dir = poolDirKey paths first
  · subst same
    exact absurd (Option.some.inj (held.symm.trans stillHeld)) different
  · rw [Function.update_of_ne same]
    exact held

/-! ### The two kinds of requests -/

theorem guards_manual {target : String} {reason : SwapReason} {force : Bool}
    {poolKey : Option String} (isSwap : requests call = .swap poolKey target reason force)
    (manual : reason = .manual) :
    Guards paths tool static cooldownMs requests call {
      pool := poolKey, target, reason, force
      now := none
      hardLimitUntilMs := none
      guard := fun _ => return () } fun _ => True := by
  intro file pool before world rest _ _ _ home held registry _ goesOn
  refine goesOn world ⟨held, registry, home, fun automatic => absurd manual automatic⟩ ?_
  intro target since
  unfold Sound
  dsimp only
  rw [isSwap]
  trivial

/-- What holds from the first look under the lock on. -/
structure Entered (paths : Paths) (tool : String) (static : List Identity) (call : Call)
    (active : String) (pool : PoolIdentity) (world : World Call) : Prop where
  holder : world.holder (poolDirKey paths pool) = some call
  registry : frozen world.registry = static
  home : dirOf paths static pool.name = some (poolDirKey paths pool)
  isActive : pool.swapPool.active = some active
  confirmed : Confirmed paths tool call pool (ownEntries call world.trace)

omit [DecidableEq Call] in
theorem Confirmed.cons {entries : List (Entry Call)} {entry : Entry Call}
    (confirmed : Confirmed paths tool call pool entries)
    (keepsLock : ∀ dir, .freed call dir ≠ entry) :
    Confirmed paths tool call pool (entry :: entries) := by
  obtain ⟨active, between, before, file, isActive, split, unfreed, loaded, found, first⟩ := confirmed
  refine ⟨active, entry :: between, before, file, isActive, by rw [split]; rfl, ?_,
    List.mem_cons_of_mem _ loaded, found, first⟩
  intro dir freed
  obtain same | freed := List.mem_cons.mp freed
  · exact keepsLock dir same
  · exact unfreed dir freed

theorem Entered.looked {active : String} (entered : Entered paths tool static call active pool world)
    (looked : Looked call world after) : Entered paths tool static call active pool after where
  holder := by rw [looked.holder]; exact entered.holder
  registry := by rw [looked.registry]; exact entered.registry
  home := entered.home
  isActive := entered.isActive
  confirmed := by
    obtain same | loaded | ⟨member, read⟩ := looked.trace
    · rw [same]
      exact entered.confirmed
    · rw [loaded, ownEntries_own call (.loaded call world.registry) rfl]
      exact entered.confirmed.cons fun dir same => nomatch same
    · rw [read, ownEntries_own call (.read call member) rfl]
      exact entered.confirmed.cons fun dir same => nomatch same

theorem unmoved_entered {active : String} :
    Unmoved paths tool static cooldownMs requests call
      (Entered paths tool static call active pool) :=
  fun _ _ others entered => {
    holder := unmoved_holder _ _ _ others entered.holder
    registry := unmoved_registry _ _ others entered.registry
    home := entered.home
    isActive := entered.isActive
    confirmed := unmoved_entries (Confirmed paths tool call pool) _ _ others entered.confirmed }

omit [DecidableEq Call] in
theorem FirstReading.cons {entries : List (Entry Call)} {name : String} (entry : Entry Call)
    (first : FirstReading call name entries) : FirstReading call name (entry :: entries) := by
  obtain ⟨later, member, earlier, split, named, none⟩ := first
  exact ⟨entry :: later, member, earlier, by rw [split]; rfl, named, none⟩

variable {deciding : Deciding} {activeMember : Identity} {usage : PoolUsage} {reason : SwapReason}
  {poolKey : Option String} {clock : Option ℤ} {targetName : String}

/-- The guard lets a swap through only when the cooldown is over, by what the ledger has while
the lock is held. -/
theorem guardCooldown_of_unassumed (unassumed : deciding.options.assumeLimited = false) :
    deciding.guardCooldown paths pool = (do
      match ← deciding.cooldown paths pool with
      | some outcome => .fail (.swapSkipped outcome)
      | none => return ()) := by
  rw [Deciding.guardCooldown, unassumed]
  rfl

theorem guards_limited
    (isLimited : requests call = .limited poolKey reason clock deciding.options)
    (unassumed : deciding.options.assumeLimited = false)
    (configured : deciding.cooldownMs = cooldownMs) :
    Guards paths tool static cooldownMs requests call
      (deciding.swapOptions paths reason activeMember usage targetName)
      (FirstReading call deciding.active) := by
  intro file pool before world rest found nodup first home held registry entries goesOn
  show Keeps paths tool static cooldownMs requests call _
    (deciding.guard paths activeMember pool >>= rest) world
  unfold Deciding.guard
  split_ifs with moved unexpected
  · exact ends_fail (lasting_holder _) held
  · exact ends_fail (lasting_holder _) held
  have isActive : pool.swapPool.active = some deciding.active := not_not.mp moved
  have entered : Entered paths tool static call deciding.active pool world := by
    refine ⟨held, registry, home, isActive, ?_⟩
    rw [entries]
    refine ⟨deciding.active, [.loaded call file], before, file, isActive, rfl, ?_,
      List.mem_singleton_self _, requirePool_again paths tool nodup found, first⟩
    intro dir freed
    exact nomatch List.mem_singleton.mp freed
  have noLedger : deciding.guardLedger paths pool = .done () := by
    rw [Deciding.guardLedger, unassumed]
    rfl
  have noUsage : deciding.guardUsage activeMember = .done () := by
    rw [Deciding.guardUsage, unassumed]
    rfl
  rw [noLedger, noUsage, guardCooldown_of_unassumed unassumed]
  intro later relies lines after answers
  obtain ⟨choice, answered⟩ := answers
  have looked := looked_of_answer (show Looks _ .readLedger from trivial) answered
  refine ⟨looked.kept, ?_⟩
  have enteredThen := (unmoved_entered.relied relies entered).looked looked
  have isLedger : lines = after.ledger := by
    cases answered
    rfl
  dsimp only [Bind.bind, Program.bind, Pure.pure]
  cases cooled : deciding.coolingAfter (eventsForPool paths (sortedEvents lines) pool) with
  | some outcome => exact ends_fail (lasting_holder _) enteredThen.holder
  | none =>
    refine goesOn after ⟨enteredThen.holder, enteredThen.registry, home, ?_⟩ ?_
    · refine fun _ => ⟨deciding.now, rfl, fun ts member => ?_⟩
      obtain ⟨event, kept, rfl⟩ := List.mem_map.mp member
      obtain ⟨inLines, own⟩ := List.mem_filter.mp kept
      obtain ⟨sameName, automatic⟩ := of_decide_eq_true own
      obtain ⟨line, inLedger, isEvent⟩ := List.mem_filterMap.mp inLines
      cases line with
      | foreign => cases isEvent
      | event swap =>
        obtain rfl := Option.some.inj isEvent
        rw [← isLedger] at inLedger
        rw [← configured]
        exact Deciding.cooled_of_coolingAfter (pairwise_eventsForPool paths lines pool) cooled
          (mem_eventsForPool paths inLedger sameName) automatic
    · intro target since
      unfold Sound
      dsimp only
      rw [isLimited]
      exact enteredThen.confirmed

/-! ### Calls -/

/-- The call has read a member, the first time this one. -/
def Decided (static : List Identity) (call : Call) (name : String) (world : World Call) : Prop :=
  frozen world.registry = static ∧ FirstReading call name (ownEntries call world.trace)

theorem lasting_decided {name : String} :
    Lasting (Kept paths tool static cooldownMs requests) call (Decided static call name) where
  unmoved := unmoved_registry.and (unmoved_entries (FirstReading call name))
  looked := fun before after looked decided => by
    refine ⟨by rw [looked.registry]; exact decided.1, ?_⟩
    obtain same | loaded | ⟨member, read⟩ := looked.trace
    · rw [same]
      exact decided.2
    · rw [loaded, ownEntries_own call (.loaded call before.registry) rfl]
      exact decided.2.cons _
    · rw [read, ownEntries_own call (.read call member) rfl]
      exact decided.2.cons _

theorem keeps_carryOut
    (isLimited : requests call = .limited poolKey reason clock deciding.options)
    (unassumed : deciding.options.assumeLimited = false)
    (configured : deciding.cooldownMs = cooldownMs)
    (decided : Decided static call deciding.active world) :
    Keeps paths tool static cooldownMs requests call (fun _ _ => True)
      (deciding.carryOut paths tool reason activeMember usage targetName) world := by
  refine Program.secure_andThen _ _ (Program.secure_mono ?_ _ _ (keeps_performPoolSwap
    (guards_limited isLimited unassumed configured) (fun _ _ first => first.cons _)
    decided.2 decided.1))
  intro outcome later _
  match outcome with
  | .ok result => exact fun _ _ => trivial
  | .error (.swapSkipped outcome) => exact fun _ _ => trivial
  | .error (.message text) => exact fun _ _ => trivial

theorem keeps_decideOn
    (isLimited : requests call = .limited poolKey reason clock deciding.options)
    (unassumed : deciding.options.assumeLimited = false)
    (configured : deciding.cooldownMs = cooldownMs)
    (decided : Decided static call deciding.active world) :
    Keeps paths tool static cooldownMs requests call (fun _ _ => True)
      (deciding.decideOn paths tool reason activeMember usage) world := by
  unfold Deciding.decideOn
  split_ifs
  · exact fun _ _ => trivial
  · exact fun _ _ => trivial
  refine ends_looks_bind setting lasting_decided
    (Program.uses_mono Quiet.looks (Deciding.uses_recentEvents paths _)) decided
    (fun _ _ => trivial) fun events later decided => ?_
  refine ends_looks_bind setting lasting_decided (deciding.uses_fetchRows events _) decided
    (fun _ _ => trivial) fun rows later decided => ?_
  cases deciding.chooseTarget usage rows with
  | none => exact fun _ _ => trivial
  | some target => exact keeps_carryOut isLimited unassumed configured decided

/-- The call has read nothing yet. -/
def Unread (static : List Identity) (call : Call) (world : World Call) : Prop :=
  frozen world.registry = static ∧ ∀ other, .read call other ∉ ownEntries call world.trace

theorem unmoved_unread :
    Unmoved paths tool static cooldownMs requests call (Unread static call) :=
  unmoved_registry.and (unmoved_entries fun entries => ∀ other, .read call other ∉ entries)

theorem quiet_keeps (Answer : Type) (action : PoolAction Answer) (quiet : Quiet Answer action)
    (before : World Call) (result : Answer) (after : World Call)
    (unread : Unread static call before)
    (answers : Chosen answer call Answer action before result after) :
    Kept paths tool static cooldownMs requests call before after ∧ Unread static call after := by
  obtain ⟨choice, answered⟩ := answers
  have looked := looked_of_answer (Quiet.looks _ _ quiet) answered
  refine ⟨looked.kept, by rw [looked.registry]; exact unread.1, ?_⟩
  obtain same | loaded := trace_of_quiet quiet answered
  · rw [same]
    exact unread.2
  · rw [loaded, ownEntries_own call (.loaded call before.registry) rfl]
    intro other member
    obtain same | member := List.mem_cons.mp member
    · exact nomatch same
    · exact unread.2 other member

theorem keeps_run
    (isLimited : requests call = .limited poolKey reason clock deciding.options)
    (unassumed : deciding.options.assumeLimited = false)
    (configured : deciding.cooldownMs = cooldownMs) (unread : Unread static call world) :
    Keeps paths tool static cooldownMs requests call (fun _ _ => True)
      (deciding.run paths tool reason) world := by
  refine Program.secure_uses_bind unmoved_unread quiet_keeps (deciding.uses_settledBefore paths)
    unread (fun settled later unread => ?_) fun _ _ _ => trivial
  cases settled with
  | some outcome => exact fun _ _ => trivial
  | none =>
    dsimp only
    split
    · exact fun _ _ => trivial
    rename_i activeMember found
    have named : activeMember.name = deciding.active := by
      have same := List.find?_some found
      exact eq_of_beq same
    intro latest relies result after answers
    obtain ⟨registry, none⟩ := unmoved_unread.relied relies unread
    obtain ⟨choice, answered⟩ := answers
    have looked := looked_of_answer (show Looks _ (.fetchUsage activeMember) from trivial) answered
    refine ⟨looked.kept, ?_⟩
    have read : ownEntries call after.trace =
        .read call activeMember :: ownEntries call latest.trace := by
      cases answered
      exact ownEntries_own call _ rfl
    have decided : Decided static call deciding.active after := by
      refine ⟨by rw [looked.registry]; exact registry, [], activeMember, _, read, named, none⟩
    cases result with
    | error error => exact fun _ _ => trivial
    | ok usage => exact keeps_decideOn isLimited unassumed configured decided

theorem keeps_swapIfLimited {options : LimitOptions}
    (isLimited : requests call = .limited poolKey reason clock options)
    (unassumed : options.assumeLimited = false)
    (configured : options.cooldownMs.getD SWAP_COOLDOWN_MS = cooldownMs)
    (unread : Unread static call world) :
    Keeps paths tool static cooldownMs requests call (fun _ _ => True)
      (swapIfLimited paths tool poolKey reason clock options) world := by
  refine Program.secure_uses_bind unmoved_unread quiet_keeps uses_loadIdentitiesFile unread
    (fun file later unread => ?_) fun _ _ _ => trivial
  refine Program.secure_uses_bind unmoved_unread quiet_keeps uses_check unread
    (fun pool later unread => ?_) fun _ _ _ => trivial
  cases pool.swapPool.active with
  | none => exact fun _ _ => trivial
  | some active =>
    dsimp only
    split_ifs
    · exact fun _ _ => trivial
    intro latest relies now after answers
    have unread := unmoved_unread.relied relies unread
    obtain ⟨choice, answered⟩ := answers
    refine ⟨kept_of_now answered, ?_⟩
    cases answered
    exact keeps_run isLimited unassumed configured unread

theorem keeps_program (cools : (requests call).Cools cooldownMs)
    (unread : Unread static call world) :
    Keeps paths tool static cooldownMs requests call (fun _ _ => True)
      ((requests call).program paths tool) world := by
  cases isRequest : requests call with
  | limited poolKey reason clock options =>
    rw [isRequest] at cools
    exact keeps_swapIfLimited isRequest cools.1 cools.2 unread
  | swap poolKey target reason force =>
    rw [isRequest] at cools
    refine Program.secure_bind _ _ (Program.secure_mono ?_ _ _
      (keeps_performPoolSwap (guards_manual isRequest cools) (fun _ _ _ => trivial) trivial
        unread.1))
    intro outcome later _
    cases outcome with
    | ok result => exact fun _ _ => trivial
    | error error => trivial

end Steps

/-! ### Runs -/

section Runs

variable {Call : Type} [DecidableEq Call] {paths : Paths} {tool : String} {cooldownMs : ℤ}
  {requests : Call → Request} {start : World Call}
  {finish : Crew PoolAction (World Call) Call PoolError LimitedOutcome}

/-- In every interleaving each step keeps what is promised of it. -/
theorem keeps_reaches (cools : ∀ call, (requests call).Cools cooldownMs)
    (fresh : start.trace = []) (reaches : Reaches paths tool requests start finish) :
    Relation.ReflTransGen (Anyone (Kept paths tool (frozen start.registry) cooldownMs requests)
      undisturbed) start finish.world := by
  have all : (crewOf paths tool requests start).Secure
      (Kept paths tool (frozen start.registry) cooldownMs requests) undisturbed (Chosen answer)
      fun _ _ _ => True := by
    refine fun call => keeps_program (cools call) ⟨rfl, ?_⟩
    show ∀ other, .read call other ∉ ownEntries call start.trace
    rw [fresh]
    exact fun _ member => nomatch member
  exact (Crew.Reaches.secure reaches all).1

/-- Every event that a run has recorded is cooled by what was recorded before it. -/
def AllCooled (cooldownMs : ℤ) (known : Nat) (ledger : List LedgerLine) : Prop :=
  ∀ earlier event later, ledger = earlier ++ .event event :: later → known ≤ earlier.length →
    Cooled cooldownMs event earlier

theorem AllCooled.append {known : Nat} {ledger : List LedgerLine} {event : SwapEvent}
    (all : AllCooled cooldownMs known ledger) (cooled : Cooled cooldownMs event ledger) :
    AllCooled cooldownMs known (ledger ++ [.event event]) := by
  intro earlier other later split isNew
  obtain rfl | ⟨before, last, rfl⟩ := List.eq_nil_or_concat later
  · obtain ⟨rfl, same⟩ := List.append_inj' split rfl
    cases same
    exact cooled
  · rw [List.concat_eq_append, ← List.cons_append, ← List.append_assoc] at split
    exact all earlier other before (List.append_inj' split rfl).1 isNew

theorem allCooled_reaches {static : List Identity} {before after : World Call}
    (reaches : Relation.ReflTransGen
      (Anyone (Kept paths tool static cooldownMs requests) undisturbed) before after) :
    AllCooled cooldownMs before.ledger.length after.ledger := by
  induction reaches with
  | refl =>
    intro earlier event later split isNew
    have longer := congrArg List.length split
    rw [List.length_append, List.length_cons] at longer
    omega
  | tail _ last inductionHypothesis =>
    obtain none | ⟨call, kept⟩ := last
    · exact none.elim
    · obtain same | ⟨event, dir, added, -, -, cooled⟩ := kept.ledger
      · rw [same]
        exact inductionHypothesis
      · rw [added]
        exact inductionHypothesis.append cooled

theorem sound_reaches {static : List Identity} {before after : World Call}
    (fresh : before.trace = []) (reaches : Relation.ReflTransGen
      (Anyone (Kept paths tool static cooldownMs requests) undisturbed) before after) :
    ∀ later entry earlier, after.trace = later ++ entry :: earlier →
      Sound paths tool requests earlier entry := by
  induction reaches with
  | refl =>
    intro later entry earlier split
    rw [fresh] at split
    exact absurd split.symm (List.append_ne_nil_of_right_ne_nil _ (List.cons_ne_nil _ _))
  | tail _ last inductionHypothesis =>
    intro later entry earlier split
    obtain none | ⟨call, kept⟩ := last
    · exact none.elim
    · obtain same | ⟨added, isTrace, -, sound⟩ := kept.trace
      · exact inductionHypothesis later entry earlier (same ▸ split)
      · rw [isTrace] at split
        cases later with
        | nil =>
          obtain ⟨rfl, rfl⟩ := List.cons.inj split
          exact sound
        | cons latest later =>
          exact inductionHypothesis later entry earlier (List.cons.inj split).2

end Runs

/-! ### Two processes that decide on one reading -/

def pollRequest : Request := .limited none .auto none ⟨false, false, none, none, none⟩

/-- Both processes read that the active member is limited before either takes the lock. -/
def raceSchedule : List (Bool × Choice) :=
  List.replicate 4 (false, reading 99) ++ List.replicate 4 (true, reading 99) ++
    List.replicate 3 (false, reading 10) ++ List.replicate 3 (true, reading 10) ++
    List.replicate 10 (false, reading 10) ++ List.replicate 4 (true, reading 10)

end AiSwitcher.Limits
