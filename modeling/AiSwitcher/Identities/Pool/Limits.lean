/-
This file models the automatic swaps of a pool: `swapIfLimited` (`identities/pool/ops.ts`) on
top of `performPoolSwap` (`swap.ts`), the ledger (`ledger.ts`), the pool lock (`lock.ts`) and
what they read of the registry (`swap-pool.ts`). A call is a program over the registry file, the
ledger, the clock, the usage readings of the members and the pool locks; any number of calls,
each in a process of its own, run interleaved.

A time in the ledger is kept as the milliseconds its text parses to. Besides the files, the
world remembers what the calls have done, since when the active member of a pool is the active
one, and the clock each call has read last.
-/

import Mathlib.Data.List.Sort
import Mathlib.Data.Rat.Defs
import AiSwitcher.Library.Crew
import AiSwitcher.Identities.Pool.Adapter

namespace AiSwitcher.Limits

open Interrupted

/-! ### Identities and pools -/

/-- `Identity.swapPool`; an absent `disallowed` is the empty list. -/
structure SwapPool where
  accounts : List String
  active : Option String
  disallowed : List String
  thresholdPercent : Option ℚ
  deriving DecidableEq

structure Identity where
  name : String
  configDir : String
  aliases : List String
  retired : Bool
  swapPool : Option SwapPool
  deriving DecidableEq

/-- An identity that carries `swapPool`. -/
structure PoolIdentity where
  identity : Identity
  swapPool : SwapPool
  isSwapPool : identity.swapPool = some swapPool
  deriving DecidableEq

abbrev PoolIdentity.name (pool : PoolIdentity) : String := pool.identity.name

/-- What is taken from the file system's names: `resolve(expandPath(dir))` and `basename`. -/
structure Paths where
  resolve : String → String
  basename : String → String

def asPool (identity : Identity) : Option PoolIdentity :=
  match same : identity.swapPool with
  | some swapPool => some ⟨identity, swapPool, same⟩
  | none => none

def findIdentityByNameOrAlias (identities : List Identity) (key : String) : Option Identity :=
  identities.find? fun identity => identity.name == key || identity.aliases.contains key

def DEFAULT_SWAP_THRESHOLD_PERCENT : ℚ := 95

def swapCommandName (tool : String) : String :=
  if tool = "claude" then "ais claude-swap" else "ais swap " ++ tool

def poolThreshold (pool : PoolIdentity) : ℚ :=
  pool.swapPool.thresholdPercent.getD DEFAULT_SWAP_THRESHOLD_PERCENT

def isAllowed (pool : PoolIdentity) (account : String) : Bool :=
  pool.swapPool.accounts.contains account && !pool.swapPool.disallowed.contains account

def allowedAccounts (pool : PoolIdentity) : List String :=
  pool.swapPool.accounts.filter (isAllowed pool)

section Registry

variable (paths : Paths)

def poolDirKey (pool : PoolIdentity) : String := paths.resolve pool.identity.configDir

/-- The loop of `poolsOf`, with the directories seen so far. -/
def poolsFrom (seen : List String) : List Identity → List PoolIdentity
  | [] => []
  | identity :: rest =>
      match asPool identity with
      | none => poolsFrom seen rest
      | some pool =>
          if identity.retired || seen.contains (poolDirKey paths pool) then poolsFrom seen rest
          else pool :: poolsFrom (poolDirKey paths pool :: seen) rest

def poolsOf (file : List Identity) : List PoolIdentity := poolsFrom paths [] file

def canonicalPool (file : List Identity) (pool : PoolIdentity) : PoolIdentity :=
  ((poolsOf paths file).find? fun candidate =>
    poolDirKey paths candidate == poolDirKey paths pool).getD pool

def requirePool (file : List Identity) (key : Option String) (tool : String) :
    Except String PoolIdentity :=
  match key with
  | some key =>
      match findIdentityByNameOrAlias file key with
      | none => .error ("No identity named \"" ++ key ++ "\"")
      | some found =>
          match asPool found with
          | none => .error ("Identity \"" ++ found.name ++ "\" is not a swap pool")
          | some pool =>
              if found.retired then .error ("Swap pool \"" ++ found.name ++ "\" is retired")
              else .ok (canonicalPool paths file pool)
  | none =>
      match poolsOf paths file with
      | [pool] => .ok pool
      | [] => .error ("No swap pool exists yet. Create one with \"" ++ swapCommandName tool ++
          " pool create <name> --accounts=a,b\".")
      | pools => .error ("More than one swap pool exists (" ++
          ", ".intercalate (pools.map PoolIdentity.name) ++ "); pass --pool=<name>.")

end Registry

def memberIdentity (file : List Identity) (pool : PoolIdentity) (key : String) :
    Except String Identity :=
  let refusal := "\"" ++ key ++ "\" is not a member of swap pool \"" ++ pool.name ++
    "\" (members: " ++ ", ".intercalate pool.swapPool.accounts ++ ")"
  match findIdentityByNameOrAlias file key with
  | none => .error refusal
  | some found => if pool.swapPool.accounts.contains found.name then .ok found else .error refusal

/-- The identities of the pool's accounts, as far as they exist. -/
def membersOf (file : List Identity) (pool : PoolIdentity) : List Identity :=
  pool.swapPool.accounts.filterMap fun name => file.find? fun identity => identity.name == name

/-- The first key of the list that occurs again before it, as `parseIdentitiesFile` meets it. -/
def duplicateKey (seen : List String) : List String → Option String
  | [] => none
  | key :: rest => if seen.contains key then some key else duplicateKey (key :: seen) rest

def keysOf (file : List Identity) : List String :=
  file.flatMap fun identity => identity.name :: identity.aliases

/-- `freshPool.swapPool.active = target.name`, for the first identity of the pool's name. -/
def setActive (name target : String) : List Identity → List Identity
  | [] => []
  | identity :: rest =>
      if identity.name = name then
        { identity with
          swapPool := identity.swapPool.map fun pool => { pool with active := some target } } :: rest
      else identity :: setActive name target rest

/-- `swapPool.active` of the first identity of this name. -/
def activeOf (file : List Identity) (name : String) : Option String :=
  ((file.find? fun identity => identity.name == name).bind Identity.swapPool).bind SwapPool.active

/-! ### Usage readings -/

inductive UsageStatus where
  | live
  | rateLimited
  | unavailable
  deriving DecidableEq

/-- A usage window; `resetsAt` is none when it is absent or no date. -/
structure UsageWindow where
  utilization : ℚ
  resetsAt : Option ℤ
  deriving DecidableEq

/-- A reading; `capturedAt` is none when it is no date. -/
structure PoolUsage where
  status : UsageStatus
  maxUtilization : Option ℚ
  windows : List UsageWindow
  extraUsage : Bool
  capturedAt : Option ℤ
  deriving DecidableEq

structure MemberRow where
  name : String
  usage : Option PoolUsage
  blockedUntil : Option ℤ

/-- What `chooseBest` ranks a row by: the utilisation of a live reading, and paid capacity. -/
structure Ranked where
  name : String
  util : Option ℚ
  extra : Bool

def rank (row : MemberRow) : Ranked where
  name := row.name
  util := row.usage.bind fun usage => if usage.status = .live then usage.maxUtilization else none
  extra := row.usage.any PoolUsage.extraUsage

/-- The comparison of `chooseBest` is not positive. -/
def Ranked.precedes (first second : Ranked) : Prop :=
  first.util.getD 1000 < second.util.getD 1000 ∨
    (first.util.getD 1000 = second.util.getD 1000 ∧ (second.extra → first.extra))

instance : DecidableRel Ranked.precedes := fun _ _ => by unfold Ranked.precedes; infer_instance

def chooseBest (rows : List MemberRow) (belowPercent : Option ℚ) (requireKnown : Bool) :
    Option String :=
  ((((rows.map rank).filter fun row => !requireKnown || row.util.isSome).filter fun row =>
    belowPercent.all fun percent => row.util.any (· < percent)).insertionSort
      Ranked.precedes).head?.map Ranked.name

/-- `(usage.maxUtilization ?? 0) >= percent` of a live reading. -/
def PoolUsage.reached (usage : PoolUsage) (percent : ℚ) : Bool :=
  usage.status = .live && decide (percent ≤ usage.maxUtilization.getD 0)

/-! ### The ledger -/

inductive SwapReason where
  | manual
  | auto
  | launch
  deriving DecidableEq

structure SwapEvent where
  ts : ℤ
  pool : String
  fromName : Option String
  toName : String
  reason : SwapReason
  hardLimitUntilMs : Option ℤ
  deriving DecidableEq

/-- A line of the ledger file, as its readers see it: torn and foreign lines are skipped. -/
inductive LedgerLine where
  | event (swap : SwapEvent)
  | foreign
  deriving DecidableEq

def LedgerLine.event? : LedgerLine → Option SwapEvent
  | .event swap => some swap
  | .foreign => none

/-- The events of the file in the order of their times. -/
def sortedEvents (lines : List LedgerLine) : List SwapEvent :=
  (lines.filterMap LedgerLine.event?).insertionSort fun first second => first.ts ≤ second.ts

def eventsForPool (paths : Paths) (events : List SwapEvent) (pool : PoolIdentity) :
    List SwapEvent :=
  let names := pool.name :: paths.basename pool.identity.configDir :: pool.identity.aliases
  (events.filter fun event => names.contains event.pool).map fun event =>
    { event with pool := pool.name }

/-! ### Programs -/

inductive LimitedOutcome where
  | notLimited (utilization : Option ℚ)
  | cooldown (retryAfterMs : ℤ)
  | noCandidate (utilization : Option ℚ) (retryAtMs activeRetryAtMs : Option ℤ)
  | swapped (result : SwapResult) (utilization : Option ℚ)
  | skipped (why : String)

/-- What a call throws: `SwapSkipped` with its outcome, or another error. -/
inductive PoolError where
  | swapSkipped (outcome : LimitedOutcome)
  | message (text : String)

inductive PoolAction : Type → Type
  | loadRegistry : PoolAction (Except PoolError (List Identity))
  /-- `deps.now?.() ?? Date.now()` -/
  | now (injected : Option ℤ) : PoolAction ℤ
  /-- The lines of the ledger; a ledger that is not there yet has none. -/
  | readLedger : PoolAction (List LedgerLine)
  | fetchUsage (member : Identity) : PoolAction (Except PoolError PoolUsage)
  | acquire (poolDir : String) : PoolAction (Except PoolError Unit)
  | release (poolDir : String) : PoolAction Unit
  | swapCredentials (pool : PoolIdentity) (members : List Identity) (target : Identity) :
      PoolAction (Except PoolError SwapResult)
  | saveRegistry (file : List Identity) : PoolAction (Except PoolError Unit)
  | appendLedger (event : SwapEvent) : PoolAction (Except PoolError Unit)

abbrev PoolProgram (Result : Type) := Program PoolAction PoolError Result

/-- A program that only checks values. -/
def check {Result : Type} (outcome : Except String Result) : PoolProgram Result :=
  .ofExcept (outcome.mapError .message)

/-- `loadIdentitiesFile`, with the one check of `parseIdentitiesFile` that lookups rest on. -/
def loadIdentitiesFile : PoolProgram (List Identity) := do
  let file ← .attempt .loadRegistry
  match duplicateKey [] (keysOf file) with
  | some key => .fail (.message ("duplicate identity name/alias \"" ++ key ++ "\""))
  | none => return file

/-- The lock file lies in the pool's directory, so the lock is named by that directory. -/
def withPoolLock {Result : Type} (poolDir : String) (body : PoolProgram Result) :
    PoolProgram Result := do
  .attempt (.acquire poolDir)
  body.andThen fun outcome => do
    .perform (.release poolDir)
    .ofExcept outcome

structure PerformSwapOptions where
  pool : Option String
  target : String
  reason : SwapReason
  force : Bool
  /-- `options.now`, a clock that stands still. -/
  now : Option ℤ
  hardLimitUntilMs : Option ℤ
  guard : PoolIdentity → PoolProgram Unit

section Calls

variable (paths : Paths) (tool : String)

/-- Persist `swapPool.active` in the registry as it now is. -/
def persistActive (pool : PoolIdentity) (target : Identity) : PoolProgram Unit := do
  let fresh ← loadIdentitiesFile
  match (fresh.find? fun identity => identity.name == pool.name).bind Identity.swapPool with
  | none => return ()
  | some freshPool =>
      if freshPool.active = some target.name then return ()
      else .attempt (.saveRegistry (setActive pool.name target.name fresh))

def recordSwap (options : PerformSwapOptions) (pool : PoolIdentity) (target : Identity)
    (fsResult : SwapResult) : PoolProgram Unit :=
  if fsResult.noop then return ()
  else do
    let ts ← .perform (.now options.now)
    .attempt (.appendLedger {
      ts
      pool := pool.name
      fromName := fsResult.fromName
      toName := target.name
      reason := options.reason
      hardLimitUntilMs := options.hardLimitUntilMs })

/-- The checks on the target, and the members that take part. -/
def swapTarget (options : PerformSwapOptions) (file : List Identity) (pool : PoolIdentity) :
    Except String Identity :=
  match memberIdentity file pool options.target with
  | .error message => .error message
  | .ok target =>
      if target.retired then .error ("Account \"" ++ target.name ++ "\" is retired")
      else if !options.force && !isAllowed pool target.name then
        .error ("Account \"" ++ target.name ++ "\" is not allowed in pool \"" ++ pool.name ++
          "\" (run \"" ++ swapCommandName tool ++ " allow " ++ target.name ++ "\" or pass --force).")
      else .ok target

def swapLocked (options : PerformSwapOptions) : PoolProgram SwapResult := do
  let file ← loadIdentitiesFile
  let pool ← check (requirePool paths file options.pool tool)
  options.guard pool
  let target ← check (swapTarget tool options file pool)
  let members := (membersOf file pool).filter fun member => !member.retired
  let fsResult ← .attempt (.swapCredentials pool members target)
  persistActive pool target
  recordSwap options pool target fsResult
  return fsResult

def performPoolSwap (options : PerformSwapOptions) : PoolProgram SwapResult := do
  let file ← loadIdentitiesFile
  let pool ← check (requirePool paths file options.pool tool)
  withPoolLock (poolDirKey paths pool) (swapLocked paths tool options)

/-! ### `swapIfLimited` -/

def SWAP_COOLDOWN_MS : ℤ := 10 * 60000

structure LimitOptions where
  assumeLimited : Bool
  trustLimitEvidence : Bool
  cooldownMs : Option ℤ
  expectedActive : Option String
  failureAtMs : Option ℤ

/-- What the closures of one call have captured. -/
structure Deciding where
  options : LimitOptions
  now : ℤ
  pool : PoolIdentity
  members : List Identity
  active : String

namespace Deciding

variable (deciding : Deciding)

def failureAtMs : Option ℤ :=
  match deciding.options.failureAtMs with
  | some failure => some failure
  | none => if deciding.options.assumeLimited then some deciding.now else none

def cooldownMs : ℤ := deciding.options.cooldownMs.getD SWAP_COOLDOWN_MS

def readAfterFailure (capturedAt : Option ℤ) : Bool :=
  deciding.failureAtMs.all fun failure => !capturedAt.any (· < failure)

/-- A live reading with headroom, against a hard limit that is not to be trusted. -/
def disproves (usage : PoolUsage) : Bool :=
  deciding.options.assumeLimited && !deciding.options.trustLimitEvidence &&
    decide (usage.status = .live) && usage.maxUtilization.any (· < 100) &&
    deciding.readAfterFailure usage.capturedAt

def recentEvents (pool : PoolIdentity) : PoolProgram (List SwapEvent) := do
  let lines ← .perform .readLedger
  return eventsForPool paths (sortedEvents lines) pool

def alreadyHandled (pool : PoolIdentity) : PoolProgram Bool :=
  match deciding.failureAtMs with
  | none => return false
  | some failure => do
      let events ← recentEvents paths pool
      return events.getLast?.any fun last => failure ≤ last.ts

def handled : LimitedOutcome := .skipped "limit failure was already handled by a pool swap"

/-- The outcome that the last automatic swap asks for. -/
def coolingAfter (events : List SwapEvent) : Option LimitedOutcome :=
  match (events.filter fun event => event.reason ≠ .manual).getLast? with
  | none => none
  | some last =>
      if deciding.failureAtMs.any (· ≤ last.ts) then some handled
      else if deciding.now - last.ts < deciding.cooldownMs then
        some (.cooldown (deciding.cooldownMs - (deciding.now - last.ts)))
      else none

def cooldown (pool : PoolIdentity) : PoolProgram (Option LimitedOutcome) := do
  let events ← recentEvents paths pool
  return deciding.coolingAfter events

/-- The checks before any usage is read. -/
def settledBefore : PoolProgram (Option LimitedOutcome) :=
  if deciding.options.assumeLimited then do
    let isHandled ← deciding.alreadyHandled paths deciding.pool
    return if isHandled then some handled else none
  else deciding.cooldown paths deciding.pool

/-- A fresh reading of the active member, after a hard limit. -/
def guardUsage (activeMember : Identity) : PoolProgram Unit :=
  if deciding.options.assumeLimited then do
    let againUsage ← .attempt (.fetchUsage activeMember)
    if deciding.disproves againUsage then
      .fail (.swapSkipped (.notLimited againUsage.maxUtilization))
    else return ()
  else return ()

def guardLedger (current : PoolIdentity) : PoolProgram Unit :=
  if deciding.options.assumeLimited then do
    let isHandled ← deciding.alreadyHandled paths current
    if isHandled then .fail (.swapSkipped handled) else return ()
  else return ()

def guardCooldown (current : PoolIdentity) : PoolProgram Unit :=
  if deciding.options.assumeLimited then return ()
  else do
    match ← deciding.cooldown paths current with
    | some outcome => .fail (.swapSkipped outcome)
    | none => return ()

/-- The guard that runs under the pool lock. -/
def guard (activeMember : Identity) (current : PoolIdentity) : PoolProgram Unit :=
  if current.swapPool.active ≠ some deciding.active then
    .fail (.swapSkipped (.skipped ("pool changed to \"" ++
      current.swapPool.active.getD "undefined" ++ "\" while deciding")))
  else if deciding.options.expectedActive.any fun expected =>
      current.swapPool.active ≠ some expected then
    .fail (.swapSkipped (.skipped ("pool changed to \"" ++
      current.swapPool.active.getD "undefined" ++ "\" before limit recovery")))
  else do
    deciding.guardLedger paths current
    deciding.guardUsage activeMember
    deciding.guardCooldown paths current

/-- The latest end of a hard limit that the ledger knows of a member. -/
def blockedUntil (events : List SwapEvent) (name : String) : Option ℤ :=
  (events.filterMap fun event =>
    if event.fromName = some name then event.hardLimitUntilMs.filter (deciding.now < ·)
    else none).max?

/-- A member that is retired or missing has no reading. -/
def memberUsage (name : String) : PoolProgram (Option PoolUsage) :=
  match deciding.members.find? fun member => member.name == name with
  | none => return none
  | some member =>
      if member.retired then return none
      else do
        let usage ← .attempt (.fetchUsage member)
        return some usage

/-- The readings of the other members. -/
def fetchRows (events : List SwapEvent) : List String → PoolProgram (List MemberRow)
  | [] => return []
  | name :: names => do
      let usage ← deciding.memberUsage name
      let rows ← fetchRows events names
      return { name, usage, blockedUntil := deciding.blockedUntil events name } :: rows

/-- The utilisation the active member counts with. -/
def activeUtil (usage : PoolUsage) : ℚ :=
  if usage.status = .live then usage.maxUtilization.getD 100 else 100

/-- The member to swap to, from the readings. -/
def chooseTarget (usage : PoolUsage) (rows : List MemberRow) : Option String :=
  let usableRows := rows.filter fun row => row.blockedUntil.isNone
  let fallback := chooseBest usableRows (some 100) true
  let fallbackUtil := fallback.bind fun name =>
    ((rows.find? fun row => row.name == name).bind MemberRow.usage).bind PoolUsage.maxUtilization
  let target := (chooseBest usableRows (some (poolThreshold deciding.pool)) true).or
    (if fallbackUtil.any fun util =>
        deciding.options.assumeLimited || decide (util < activeUtil usage) then fallback else none)
  if deciding.options.assumeLimited then
    target.or ((usableRows.find? fun row => row.usage.any (·.status ≠ .live)).map MemberRow.name)
  else target.or (if activeUtil usage < 100 || usage.extraUsage then none
    else chooseBest (usableRows.filter fun row => row.usage.any PoolUsage.extraUsage) none false)

/-- The latest reset of the exhausted windows, when all of them are known and to come. -/
def latestReset (windows : List UsageWindow) : Option ℤ :=
  let exhausted := windows.filter fun window => 100 ≤ window.utilization
  if exhausted.all fun window => window.resetsAt.any (deciding.now < ·) then
    (exhausted.filterMap UsageWindow.resetsAt).max?
  else none

/-- When one allowed member is known to be usable again. -/
def memberReset (rows : List MemberRow) (name : String) : Option ℤ :=
  let row := rows.find? fun row => row.name == name
  ((row.bind MemberRow.blockedUntil).filter (deciding.now < ·)).or
    (if deciding.members.any fun member => member.name == name then
      (row.bind MemberRow.usage).bind fun usage =>
        if usage.status = .live then deciding.latestReset usage.windows else none
    else none)

def earliestPoolReset (allowed : List String) (rows : List MemberRow) : Option ℤ :=
  let resets := allowed.map (deciding.memberReset rows)
  (resets.filterMap id).min?.map fun earliest =>
    if resets.any Option.isNone then min earliest (deciding.now + 30000) else earliest

def knownResetOrCooldown (usage : PoolUsage) : ℤ :=
  (((usage.windows.filter fun window => 100 ≤ window.utilization).filterMap
    UsageWindow.resetsAt).filter (deciding.now < ·)).max?.getD (deciding.now + deciding.cooldownMs)

/-- The outcome when nobody can be swapped to. -/
def noCandidate (usage : PoolUsage) (rows : List MemberRow) (blocked : Option ℤ) :
    LimitedOutcome :=
  let allowed := (allowedAccounts deciding.pool).filter fun name =>
    name ≠ deciding.active || usage.status = .rateLimited || usage.reached 100
  .noCandidate usage.maxUtilization
    (deciding.earliestPoolReset allowed
      (rows ++ [{ name := deciding.active, usage := some usage, blockedUntil := blocked }]))
    (deciding.latestReset usage.windows)

/-- The swap that was decided on, with its guard. -/
def swapOptions (reason : SwapReason) (activeMember : Identity) (usage : PoolUsage)
    (target : String) : PerformSwapOptions where
  pool := some deciding.pool.name
  target := target
  reason := reason
  force := false
  now := some deciding.now
  hardLimitUntilMs :=
    if deciding.options.assumeLimited then some (deciding.knownResetOrCooldown usage) else none
  guard := deciding.guard paths activeMember

def carryOut (reason : SwapReason) (activeMember : Identity) (usage : PoolUsage)
    (target : String) : PoolProgram LimitedOutcome :=
  (performPoolSwap paths tool (deciding.swapOptions paths reason activeMember usage target)).andThen
    fun
      | .ok result => .done (.swapped result usage.maxUtilization)
      | .error (.swapSkipped outcome) => .done outcome
      | .error error => .fail error

/-- From the reading of the active member on. -/
def decideOn (reason : SwapReason) (activeMember : Identity) (usage : PoolUsage) :
    PoolProgram LimitedOutcome :=
  if deciding.disproves usage then return .notLimited usage.maxUtilization
  else if !(deciding.options.assumeLimited || usage.status = .rateLimited ||
      usage.reached (poolThreshold deciding.pool)) then
    return .notLimited usage.maxUtilization
  else do
    let events ← recentEvents paths deciding.pool
    let others := (allowedAccounts deciding.pool).filter (· ≠ deciding.active)
    let rows ← deciding.fetchRows events others
    match deciding.chooseTarget usage rows with
    | none => return deciding.noCandidate usage rows (deciding.blockedUntil events deciding.active)
    | some target => deciding.carryOut paths tool reason activeMember usage target

/-- From the clock on. -/
def run (reason : SwapReason) : PoolProgram LimitedOutcome := do
  match ← deciding.settledBefore paths with
  | some outcome => return outcome
  | none =>
      match deciding.members.find? fun member => member.name == deciding.active with
      | none => return .skipped ("active account \"" ++ deciding.active ++ "\" is not an identity")
      | some activeMember => do
          let usage ← .attempt (.fetchUsage activeMember)
          deciding.decideOn paths tool reason activeMember usage

end Deciding

/-- `clock` is `deps.now`, when it is given. -/
def swapIfLimited (poolKey : Option String) (reason : SwapReason) (clock : Option ℤ)
    (options : LimitOptions) : PoolProgram LimitedOutcome := do
  let file ← loadIdentitiesFile
  let pool ← check (requirePool paths file poolKey tool)
  match pool.swapPool.active with
  | none => return .skipped "pool has no active account yet"
  | some active =>
      if options.expectedActive.any (active ≠ ·) then
        return .skipped ("pool changed to \"" ++ active ++ "\" before limit recovery")
      else do
        let now ← .perform (.now clock)
        Deciding.run paths tool { options, now, pool, members := membersOf file pool, active } reason

end Calls

/-! ### Calls in one world -/

/-- What a call has done. -/
inductive Entry (Call : Type) where
  | loaded (call : Call) (file : List Identity)
  | read (call : Call) (member : Identity)
  | took (call : Call) (poolDir : String)
  | freed (call : Call) (poolDir : String)
  /-- The credentials of the pool were swapped; `since` is when its active member became the
  active one, if it did so in this run. -/
  | swapped (call : Call) (pool : PoolIdentity) (target : Identity) (since : Option ℤ)

def Entry.call {Call : Type} : Entry Call → Call
  | .loaded call _ | .read call _ | .took call _ | .freed call _ | .swapped call _ _ _ => call

structure World (Call : Type) where
  registry : List Identity
  ledger : List LedgerLine
  holder : String → Option Call
  clock : ℤ
  /-- When `swapPool.active` of a pool has last changed. -/
  since : String → Option ℤ
  /-- The clock that a call has read last. -/
  lastRead : Call → Option ℤ
  /-- The latest entry first. -/
  trace : List (Entry Call)

/-- What the world settles for one action: how much time has passed, whether the action fails, and
what an adapter answers. -/
structure Choice where
  elapsed : Nat
  fault : Bool
  usage : PoolUsage
  credsInPlace : Bool
  writeBack : WriteBackOutcome
  notes : List String

namespace World

variable {Call : Type} [DecidableEq Call] (world : World Call) (call : Call)

def elapse (time : Nat) : World Call := { world with clock := world.clock + time }

def record (entry : Entry Call) : World Call := { world with trace := entry :: world.trace }

def readClock (time : ℤ) : World Call :=
  { world with lastRead := Function.update world.lastRead call (some time) }

def take (poolDir : String) : World Call :=
  { world with
    holder := Function.update world.holder poolDir (some call)
    trace := .took call poolDir :: world.trace }

/-- A lock is released only by its holder. -/
def free (poolDir : String) : World Call :=
  { world with
    holder := if world.holder poolDir = some call then Function.update world.holder poolDir none
      else world.holder
    trace := .freed call poolDir :: world.trace }

def save (file : List Identity) : World Call :=
  { world with
    registry := file
    since := fun name =>
      if activeOf file name = activeOf world.registry name then world.since name
      else some world.clock }

def append (event : SwapEvent) : World Call :=
  { world with ledger := world.ledger ++ [.event event] }

/-- Every adapter answers a swap to the active member whose credentials are in place with `noop`. -/
def credentialsResult (pool : PoolIdentity) (target : Identity) (choice : Choice) : SwapResult where
  pool := pool.name
  fromName := pool.swapPool.active
  toName := target.name
  noop := decide (pool.swapPool.active = some target.name) && choice.credsInPlace
  writeBack := choice.writeBack
  notes := choice.notes

def failed {Result : Type} : Except PoolError Result := .error (.message "failed")

/-- None when the action has to wait. -/
def perform (choice : Choice) {Answer : Type} (action : PoolAction Answer) :
    Option (Answer × World Call) :=
  match action with
  | .loadRegistry =>
      if choice.fault then some (failed, world)
      else some (.ok world.registry, world.record (.loaded call world.registry))
  | .now injected =>
      some (injected.getD world.clock, world.readClock call (injected.getD world.clock))
  | .readLedger => some (world.ledger, world)
  | .fetchUsage member =>
      some (if choice.fault then failed else .ok choice.usage, world.record (.read call member))
  | .acquire poolDir =>
      if choice.fault then some (failed, world)
      else if world.holder poolDir = none then some (.ok (), world.take call poolDir)
      else none
  | .release poolDir => some ((), world.free call poolDir)
  | .swapCredentials pool _ target =>
      if choice.fault then some (failed, world)
      else some (.ok (credentialsResult pool target choice),
        world.record (.swapped call pool target (world.since pool.name)))
  | .saveRegistry file =>
      if choice.fault then some (failed, world) else some (.ok (), world.save file)
  | .appendLedger event =>
      if choice.fault then some (failed, world) else some (.ok (), world.append event)

end World

/-- An action happens some time after the action before it. -/
def answer {Call : Type} [DecidableEq Call] (call : Call) (Answer : Type)
    (action : PoolAction Answer) (choice : Choice) (world : World Call) :
    Option (Answer × World Call) :=
  (world.elapse choice.elapsed).perform call choice action

/-- What a process is asked to do: an automatic swap, or a swap to a member. -/
inductive Request where
  | limited (poolKey : Option String) (reason : SwapReason) (clock : Option ℤ)
      (options : LimitOptions)
  | swap (poolKey : Option String) (target : String) (reason : SwapReason) (force : Bool)

def Request.poolKey : Request → Option String
  | .limited poolKey _ _ _ | .swap poolKey _ _ _ => poolKey

/-- A swap to a member is unguarded, and takes its time from the clock when it is recorded. -/
def Request.program (paths : Paths) (tool : String) : Request → PoolProgram LimitedOutcome
  | .limited poolKey reason clock options => swapIfLimited paths tool poolKey reason clock options
  | .swap pool target reason force => do
      let result ← performPoolSwap paths tool {
        pool, target, reason, force
        now := none
        hardLimitUntilMs := none
        guard := fun _ => return () }
      return .swapped result none

/-- All calls before their first actions. -/
def crewOf {Call : Type} (paths : Paths) (tool : String) (requests : Call → Request)
    (world : World Call) : Crew PoolAction (World Call) Call PoolError LimitedOutcome where
  world := world
  running := fun call => (requests call).program paths tool

/-- Nothing but the calls changes the world. -/
def undisturbed {Call : Type} (_ _ : World Call) : Prop := False

/-- What any interleaving of the calls can reach. -/
def Reaches {Call : Type} [DecidableEq Call] (paths : Paths) (tool : String)
    (requests : Call → Request) (start : World Call)
    (finish : Crew PoolAction (World Call) Call PoolError LimitedOutcome) : Prop :=
  Crew.Reaches (Chosen answer) undisturbed (crewOf paths tool requests start) finish

end AiSwitcher.Limits
