/-
This file models which identity a launch uses (`resolve.ts`), with the pools it looks up
(`swap-pool.ts`) and the picker it opens (`prompt.ts`), and proves that a retired identity is never
the answer: it is refused where it is named or matched best, and passed over in a tie.

The user's answers to the picker are an input; the messages on the console are left out.
-/

import AiSwitcher.Identities.Match
import AiSwitcher.Library.Control

namespace AiSwitcher.Resolution

open JavaScript

/-! ### Registries -/

/-- `validNames` of an error. -/
def namesOf (identities : List Identity) : List String := identities.map Identity.name

def findIdentityByNameOrAlias (identities : List Identity) (key : String) : Option Identity :=
  identities.find? fun identity => identity.name = key || identity.aliases.contains key

def activeIdentities (identities : List Identity) : List Identity :=
  identities.filter fun identity => !identity.retired

section Registry

variable (runtime : PathRuntime)

def normaliseDir (dir : String) : String :=
  let resolved := runtime.resolve [dir]
  if 1 < unitLength resolved then
    .ofList (resolved.toList.reverse.dropWhile (· = '/')).reverse
  else resolved

def findRetiredByConfigDir (identities : List Identity) (configDir : String) : Option Identity :=
  identities.find? fun identity =>
    identity.retired && normaliseDir runtime identity.configDir = normaliseDir runtime configDir

/-- The key that two records of one pool share. -/
def poolDirKey (pool : Identity) : String := runtime.resolve [expandPath runtime pool.configDir]

/-- The active pools, the first record of each folder. -/
def poolsOf (identities : List Identity) : List Identity :=
  identities.foldl (fun pools identity =>
    if identity.swapPool.isNone || identity.retired ||
        pools.any (poolDirKey runtime · = poolDirKey runtime identity) then pools
    else pools ++ [identity]) []

def canonicalPool (identities : List Identity) (pool : Identity) : Identity :=
  ((poolsOf runtime identities).find?
    (poolDirKey runtime · = poolDirKey runtime pool)).getD pool

def findPool (identities : List Identity) (key : String) : Option Identity :=
  match findIdentityByNameOrAlias identities key with
  | none => none
  | some found =>
      if found.swapPool.isNone || found.retired then none
      else some (canonicalPool runtime identities found)

end Registry

/-! ### Options -/

inductive PickerMode where
  | identity
  | pool
  deriving DecidableEq

structure ToolConfig where
  toolName : String
  envVarName : String
  singleInstanceDir : Option String

structure ResolveOptions where
  explicitIdentityFlag : Option String
  explicitPoolFlag : Option String
  pickerMode : Option PickerMode
  cwd : String
  env : String → Option String
  nonInteractiveHint : Bool

inductive ResolveSource where
  | flag
  | env
  | directoryMatch
  | interactiveExisting
  | interactiveCreated
  | singleInstance
  deriving DecidableEq

structure ResolvedIdentity where
  identity : Option Identity
  configDirValue : String
  source : ResolveSource
  deriving DecidableEq

/-- Whether a tool has a pool adapter. -/
def adapterFor (toolName : String) : Bool :=
  toolName ∈ ["claude", "codex", "kimi", "pi"]

/-- A text that is there and not empty. -/
def given (text : Option String) : Option String := text.filter (· ≠ "")

/-! ### The picker -/

/-- The last answer of the user: a row of one of the two lists, a new identity, or none. -/
inductive PromptAnswer where
  | pool (name : String)
  | identity (name : String)
  | create (name configDir : String) (directories aliases : List String)
  | cancelled
  | timedOut (seconds : Nat)

/-- The environment of a launch besides its options: the home and file system, the registry as it
is loaded, the terminal, and the user. -/
structure ResolveDeps where
  paths : PathRuntime
  registry : Except ResolutionError (List Identity)
  isInteractive : Bool
  answer : PromptAnswer

variable (deps : ResolveDeps) (cfg : ToolConfig) (opts : ResolveOptions)

/-- The identity that was picked, and whether it is a new one. -/
def promptForIdentity (identities : List Identity) : Except ResolutionError (Identity × Bool) :=
  let pools := if adapterFor cfg.toolName then poolsOf deps.paths identities else []
  let plain := (activeIdentities identities).filter (·.swapPool.isNone)
  if opts.pickerMode = some .pool ∧ pools = [] then .error (.unknownPool "(any)" [])
  else match deps.answer with
    | .pool name =>
        match pools.find? (·.name = name) with
        | some pool => .ok (pool, false)
        | none => .error (.invalidIdentitiesFile ("selected pool \"" ++ name ++ "\" vanished"))
    | .identity name =>
        match plain.find? (·.name = name) with
        | some identity => .ok (identity, false)
        | none => .error (.invalidIdentitiesFile ("selected identity \"" ++ name ++ "\" vanished"))
    | .create name configDir directories aliases =>
        .ok (⟨name, configDir, directories, aliases, false, none, none⟩, true)
    | .cancelled => .error (.promptCancelled cfg.toolName)
    | .timedOut seconds => .error (.promptTimeout cfg.toolName seconds)

def promptSource (created : Bool) : ResolveSource :=
  if created then .interactiveCreated else .interactiveExisting

/-! ### Resolving -/

/-- A preset folder of a retired identity is refused; a registry that cannot be read is not
asked. -/
def assertEnvNotRetired (envValue : String) : Except ResolutionError Unit :=
  match deps.registry with
  | .error _ => .ok ()
  | .ok identities =>
      match findRetiredByConfigDir deps.paths identities (expandPath deps.paths envValue) with
      | some retired => .error (.retiredIdentity cfg.toolName retired.name retired.retiredAt)
      | none => .ok ()

/-- The preset folder, unless a picker is asked for. -/
def presetEnvValue : Option String :=
  if opts.pickerMode = none then given (opts.env cfg.envVarName) else none

/-- The directory match, unless a picker is asked for. -/
def matched (identities : List Identity) : Except ResolutionError (Option DirectoryMatch) :=
  if opts.pickerMode = none then matchDirectory deps.paths opts.cwd identities else .ok none

def refused (identity : Identity) : ResolutionError :=
  .retiredIdentity cfg.toolName identity.name identity.retiredAt

/-- A unique match that is not retired. -/
def seedOf : Option DirectoryMatch → Option Identity
  | some (.unique identity _) => if identity.retired then none else some identity
  | _ => none

def resolveSingleInstanceIdentity : Except ResolutionError ResolvedIdentity := do
  match given cfg.singleInstanceDir with
  | none => .error (.other
      (cfg.toolName ++ ": resolveSingleInstanceIdentity requires singleInstanceDir"))
  | some singleInstanceDir =>
    let dirOf (identity : Identity) : String :=
      expandPath deps.paths
        (if identity.swapPool.isSome then identity.configDir else singleInstanceDir)
    let identities ← deps.registry
    match given opts.explicitIdentityFlag with
    | some flag =>
        match findIdentityByNameOrAlias identities flag with
        | none => .error (.unknownIdentity flag (namesOf identities))
        | some identity =>
            if identity.retired then .error (refused cfg identity)
            else return ⟨some identity, dirOf identity, .flag⟩
    | none =>
    match given opts.explicitPoolFlag with
    | some flag =>
        match findPool deps.paths identities flag with
        | some pool =>
            if adapterFor cfg.toolName then
              return ⟨some pool, expandPath deps.paths pool.configDir, .flag⟩
            else .error (.unknownPool flag (namesOf (poolsOf deps.paths identities)))
        | none => .error (.unknownPool flag (namesOf (poolsOf deps.paths identities)))
    | none =>
    match presetEnvValue cfg opts with
    | some envValue =>
        assertEnvNotRetired deps cfg envValue
        return ⟨none, envValue, .env⟩
    | none =>
    let result ← matched deps opts identities
    match seedOf result with
    | some identity => return ⟨some identity, dirOf identity, .directoryMatch⟩
    | none =>
    let hasPools := adapterFor cfg.toolName &&
      identities.any fun identity => identity.swapPool.isSome && !identity.retired
    let terminal := !opts.nonInteractiveHint && deps.isInteractive
    if opts.pickerMode.isSome || (hasPools && terminal) then
      if terminal then
        let (identity, created) ← promptForIdentity deps cfg opts identities
        return ⟨some identity, dirOf identity, promptSource created⟩
      else .error (.nonInteractive (cfg.toolName ++ ": pool or identity selection needs an " ++
        "interactive terminal. Pass --identity=<name> or --pool=<name>."))
    else return ⟨none, expandPath deps.paths singleInstanceDir, .singleInstance⟩

/-- A tie with retired candidates is matched again among the active identities. -/
def matchedAmongActive (identities : List Identity) :
    Except ResolutionError (Option DirectoryMatch) := do
  let result ← matched deps opts identities
  match result with
  | some (.ambiguous candidates) =>
      if candidates.any (·.retired) && !candidates.all (·.retired) then
        matchDirectory deps.paths opts.cwd (activeIdentities identities)
      else return result
  | _ => return result

def resolveIdentity : Except ResolutionError ResolvedIdentity := do
  if (given cfg.singleInstanceDir).isSome then resolveSingleInstanceIdentity deps cfg opts
  else
    match given opts.explicitIdentityFlag with
    | some flag =>
        let identities ← deps.registry
        match findIdentityByNameOrAlias identities flag with
        | none => .error (.unknownIdentity flag (namesOf identities))
        | some identity =>
            if identity.retired then .error (refused cfg identity)
            else return ⟨some identity, expandPath deps.paths identity.configDir, .flag⟩
    | none =>
    match given opts.explicitPoolFlag with
    | some flag =>
        let identities ← deps.registry
        match findPool deps.paths identities flag with
        | some pool => return ⟨some pool, expandPath deps.paths pool.configDir, .flag⟩
        | none => .error (.unknownPool flag (namesOf (poolsOf deps.paths identities)))
    | none =>
    match presetEnvValue cfg opts with
    | some envValue =>
        assertEnvNotRetired deps cfg envValue
        return ⟨none, envValue, .env⟩
    | none =>
    let identities ← deps.registry
    let result ← matchedAmongActive deps opts identities
    match result with
    | some (.unique identity _) =>
        if identity.retired then .error (refused cfg identity)
        else return ⟨some identity, expandPath deps.paths identity.configDir, .directoryMatch⟩
    | _ =>
    if opts.nonInteractiveHint || !deps.isInteractive then
      .error (.nonInteractive (cfg.toolName ++ ": no --identity given, no " ++ cfg.envVarName ++
        " set, and no unique directory match for \"" ++ opts.cwd ++
        "\" — refusing to prompt in a non-interactive context. Pass --identity=<name> explicitly."))
    else
      let (identity, created) ← promptForIdentity deps cfg opts identities
      return ⟨some identity, expandPath deps.paths identity.configDir, promptSource created⟩

/-! ### Retired identities -/

variable {deps} {cfg} {opts} {identities : List Identity} {result : ResolvedIdentity}

/-- The result names no retired identity, and no preset folder that a retired identity has in a
registry that can be read. -/
structure Avoids (deps : ResolveDeps) (result : ResolvedIdentity) : Prop where
  active : ∀ identity, result.identity = some identity → identity.retired = false
  preset : result.source = .env → ∀ identities, deps.registry = .ok identities →
    ∀ identity ∈ identities, identity.retired = true →
      normaliseDir deps.paths identity.configDir ≠
        normaliseDir deps.paths (expandPath deps.paths result.configDirValue)

theorem avoids_of_active {identity : Identity} {configDirValue : String} {source : ResolveSource}
    (active : identity.retired = false) (notEnv : source ≠ .env) :
    Avoids deps ⟨some identity, configDirValue, source⟩ :=
  ⟨fun _ same => Option.some.inj same ▸ active, fun isEnv => absurd isEnv notEnv⟩

theorem avoids_preset {envValue : String}
    (passed : assertEnvNotRetired deps cfg envValue = .ok ()) : Avoids deps ⟨none, envValue, .env⟩ := by
  refine ⟨fun _ isNone => (by cases isNone), fun _ identities isRegistry identity member retired
    same => ?_⟩
  rw [assertEnvNotRetired, isRegistry] at passed
  dsimp only at passed
  split at passed
  next => cases passed
  next none =>
    have missed := List.find?_eq_none.mp none identity member
    simp [retired, same] at missed

theorem promptSource_ne_env (created : Bool) : promptSource created ≠ .env := by
  cases created <;> simp [promptSource]

theorem active_of_mem_poolsOf {paths : PathRuntime} {pool : Identity}
    (member : pool ∈ poolsOf paths identities) : pool.retired = false := by
  have kept : ∀ (identities pools : List Identity), (∀ pool ∈ pools, pool.retired = false) →
      ∀ pool ∈ identities.foldl (fun pools identity =>
        if identity.swapPool.isNone || identity.retired ||
            pools.any (poolDirKey paths · = poolDirKey paths identity) then pools
        else pools ++ [identity]) pools, pool.retired = false := by
    intro identities
    induction identities with
    | nil => exact fun pools active => active
    | cons identity identities inductionHypothesis =>
      intro pools active
      refine inductionHypothesis _ fun pool member => ?_
      dsimp only at member
      split at member
      next => exact active pool member
      next isNew =>
        rcases List.mem_append.mp member with old | new
        · exact active pool old
        · simp only [Bool.or_eq_true, not_or, Bool.not_eq_true] at isNew
          exact List.mem_singleton.mp new ▸ isNew.1.2
  exact kept identities [] nofun pool member

theorem active_of_findPool {paths : PathRuntime} {key : String} {pool : Identity}
    (found : findPool paths identities key = some pool) : pool.retired = false := by
  unfold findPool at found
  split at found
  next => cases found
  next record _ =>
    split at found
    next => cases found
    next isPool =>
      obtain rfl := Option.some.inj found
      unfold canonicalPool
      cases isFirst : (poolsOf paths identities).find?
          (poolDirKey paths · = poolDirKey paths record) with
      | none =>
        simp only [Bool.or_eq_true, not_or, Bool.not_eq_true] at isPool
        exact isPool.2
      | some first => exact active_of_mem_poolsOf (List.mem_of_find?_eq_some isFirst)

theorem active_of_prompt {identity : Identity} {created : Bool}
    (picked : promptForIdentity deps cfg opts identities = .ok (identity, created)) :
    identity.retired = false := by
  unfold promptForIdentity at picked
  extract_lets pools plain at picked
  split at picked
  next => cases picked
  split at picked
  next name _ =>
    split at picked
    next pool isPool =>
      obtain ⟨rfl, -⟩ := Prod.mk.inj (Except.ok.inj picked)
      have member := List.mem_of_find?_eq_some isPool
      simp only [pools] at member
      split at member
      next => exact active_of_mem_poolsOf member
      next => cases member
    next => cases picked
  next name _ =>
    split at picked
    next found isFound =>
      obtain ⟨rfl, -⟩ := Prod.mk.inj (Except.ok.inj picked)
      have member := List.mem_of_find?_eq_some isFound
      simp only [plain, activeIdentities, List.mem_filter, Bool.not_eq_true'] at member
      exact member.1.2
    next => cases picked
  next =>
    obtain ⟨rfl, -⟩ := Prod.mk.inj (Except.ok.inj picked)
    rfl
  next => cases picked
  next => cases picked

theorem active_of_seedOf {found : Option DirectoryMatch} {identity : Identity}
    (isSeed : seedOf found = some identity) : identity.retired = false := by
  unfold seedOf at isSeed
  split at isSeed
  next =>
    split at isSeed
    next => cases isSeed
    next active => exact Option.some.inj isSeed ▸ Bool.eq_false_iff.mpr active
  next => cases isSeed

theorem resolveSingleInstanceIdentity_avoids
    (resolved : resolveSingleInstanceIdentity deps cfg opts = .ok result) : Avoids deps result := by
  unfold resolveSingleInstanceIdentity at resolved
  split at resolved
  next => cases resolved
  next singleInstanceDir _ =>
  obtain ⟨identities, isRegistry, resolved⟩ := (bind_eq_ok _ _ _).mp resolved
  split at resolved
  next flag _ =>
    split at resolved
    next => cases resolved
    next identity _ =>
      split at resolved
      next => cases resolved
      next active =>
        obtain rfl := Except.ok.inj resolved
        exact avoids_of_active (Bool.eq_false_iff.mpr active) nofun
  split at resolved
  next flag _ =>
    split at resolved
    next pool isPool =>
      split at resolved
      next =>
        obtain rfl := Except.ok.inj resolved
        exact avoids_of_active (active_of_findPool isPool) nofun
      next => cases resolved
    next => cases resolved
  split at resolved
  next envValue _ =>
    obtain ⟨⟨⟩, passed, resolved⟩ := (bind_eq_ok _ _ _).mp resolved
    obtain rfl := Except.ok.inj resolved
    exact avoids_preset passed
  obtain ⟨found, isMatched, resolved⟩ := (bind_eq_ok _ _ _).mp resolved
  split at resolved
  next identity isSeed =>
    obtain rfl := Except.ok.inj resolved
    exact avoids_of_active (active_of_seedOf isSeed) nofun
  extract_lets hasPools terminal at resolved
  split at resolved
  next =>
    split at resolved
    next =>
      obtain ⟨⟨identity, created⟩, picked, resolved⟩ := (bind_eq_ok _ _ _).mp resolved
      obtain rfl := Except.ok.inj resolved
      exact avoids_of_active (active_of_prompt picked) (promptSource_ne_env created)
    next => cases resolved
  next =>
    obtain rfl := Except.ok.inj resolved
    exact ⟨fun _ isNone => (by cases isNone), fun isEnv => (by cases isEnv)⟩

theorem resolveIdentity_avoids (resolved : resolveIdentity deps cfg opts = .ok result) :
    Avoids deps result := by
  unfold resolveIdentity at resolved
  split at resolved
  next => exact resolveSingleInstanceIdentity_avoids resolved
  split at resolved
  next flag _ =>
    obtain ⟨identities, isRegistry, resolved⟩ := (bind_eq_ok _ _ _).mp resolved
    split at resolved
    next => cases resolved
    next identity _ =>
      split at resolved
      next => cases resolved
      next active =>
        obtain rfl := Except.ok.inj resolved
        exact avoids_of_active (Bool.eq_false_iff.mpr active) nofun
  split at resolved
  next flag _ =>
    obtain ⟨identities, isRegistry, resolved⟩ := (bind_eq_ok _ _ _).mp resolved
    split at resolved
    next pool isPool =>
      obtain rfl := Except.ok.inj resolved
      exact avoids_of_active (active_of_findPool isPool) nofun
    next => cases resolved
  split at resolved
  next envValue _ =>
    obtain ⟨⟨⟩, passed, resolved⟩ := (bind_eq_ok _ _ _).mp resolved
    obtain rfl := Except.ok.inj resolved
    exact avoids_preset passed
  obtain ⟨identities, isRegistry, resolved⟩ := (bind_eq_ok _ _ _).mp resolved
  obtain ⟨found, isMatched, resolved⟩ := (bind_eq_ok _ _ _).mp resolved
  split at resolved
  next identity _ =>
    split at resolved
    next => cases resolved
    next active =>
      obtain rfl := Except.ok.inj resolved
      exact avoids_of_active (Bool.eq_false_iff.mpr active) nofun
  split at resolved
  next => cases resolved
  next =>
    obtain ⟨⟨identity, created⟩, picked, resolved⟩ := (bind_eq_ok _ _ _).mp resolved
    obtain rfl := Except.ok.inj resolved
    exact avoids_of_active (active_of_prompt picked) (promptSource_ne_env created)

/-! ### The directory match -/

/-- Nothing but the working directory can decide. -/
structure Undirected (cfg : ToolConfig) (opts : ResolveOptions) : Prop where
  noIdentity : given opts.explicitIdentityFlag = none
  noPool : given opts.explicitPoolFlag = none
  noPreset : given (opts.env cfg.envVarName) = none
  noPicker : opts.pickerMode = none

theorem Undirected.presetEnvValue (undirected : Undirected cfg opts) :
    presetEnvValue cfg opts = none := by
  rw [Resolution.presetEnvValue, if_pos undirected.noPicker, undirected.noPreset]

theorem Undirected.resolveIdentity (undirected : Undirected cfg opts)
    (ordinary : given cfg.singleInstanceDir = none) (isRegistry : deps.registry = .ok identities)
    {identity : Identity} {raw : String}
    (isMatch : matchedAmongActive deps opts identities = .ok (some (.unique identity raw))) :
    resolveIdentity deps cfg opts = if identity.retired then .error (refused cfg identity)
      else .ok ⟨some identity, expandPath deps.paths identity.configDir, .directoryMatch⟩ := by
  unfold Resolution.resolveIdentity
  rw [ordinary, undirected.noIdentity, undirected.noPool, undirected.presetEnvValue, isRegistry,
    ok_bind, isMatch, ok_bind]
  rfl

theorem Undirected.matched (undirected : Undirected cfg opts) :
    matched deps opts identities = matchDirectory deps.paths opts.cwd identities :=
  if_pos undirected.noPicker

/-- What resolving does about retired identities. A best match that is retired is refused, or for
a tool of a single instance not used; a tie with active ones is decided among these. -/
structure NeverRetired (deps : ResolveDeps) (cfg : ToolConfig) (opts : ResolveOptions) : Prop where
  avoids : ∀ result, resolveIdentity deps cfg opts = .ok result → Avoids deps result
  singleAvoids : ∀ result, resolveSingleInstanceIdentity deps cfg opts = .ok result →
    Avoids deps result
  refuses : given cfg.singleInstanceDir = none → Undirected cfg opts →
    ∀ identities identity raw, deps.registry = .ok identities →
      matchDirectory deps.paths opts.cwd identities = .ok (some (.unique identity raw)) →
        identity.retired = true → resolveIdentity deps cfg opts = .error (refused cfg identity)
  unused : Undirected cfg opts → ∀ identities identity raw, deps.registry = .ok identities →
    matchDirectory deps.paths opts.cwd identities = .ok (some (.unique identity raw)) →
      identity.retired = true → ∀ result, resolveSingleInstanceIdentity deps cfg opts = .ok result →
        result.source ≠ .directoryMatch
  tie : given cfg.singleInstanceDir = none → Undirected cfg opts →
    ∀ identities candidates, deps.registry = .ok identities →
      matchDirectory deps.paths opts.cwd identities = .ok (some (.ambiguous candidates)) →
        candidates.any (·.retired) = true → candidates.all (·.retired) = false →
          ∀ identity raw, matchDirectory deps.paths opts.cwd (activeIdentities identities) =
            .ok (some (.unique identity raw)) →
              (∃ entry, Best (Matching deps.paths opts.cwd (activeIdentities identities)) entry ∧
                entry.identity = identity) ∧
              resolveIdentity deps cfg opts = .ok
                ⟨some identity, expandPath deps.paths identity.configDir, .directoryMatch⟩

theorem best_of_unique {paths : PathRuntime} {cwd : String} {identity : Identity} {raw : String}
    (isMatch : matchDirectory paths cwd identities = .ok (some (.unique identity raw))) :
    ∃ entry, Best (Matching paths cwd identities) entry ∧ entry.identity = identity := by
  rcases matchDirectory_cases paths cwd identities with
    ⟨-, error, isError⟩ | ⟨-, result, isResult, answers⟩
  · rw [isError] at isMatch
    cases isMatch
  · obtain rfl := Except.ok.inj (isResult.symm.trans isMatch)
    obtain ⟨⟨entry, isBest, isIdentity, -⟩, -⟩ := answers
    exact ⟨entry, isBest, isIdentity⟩

theorem not_directoryMatch_of_retired (undirected : Undirected cfg opts) {identity : Identity}
    {raw : String} (isRegistry : deps.registry = .ok identities)
    (isMatch : matchDirectory deps.paths opts.cwd identities = .ok (some (.unique identity raw)))
    (retired : identity.retired = true)
    (resolved : resolveSingleInstanceIdentity deps cfg opts = .ok result) :
    result.source ≠ .directoryMatch := by
  have unseeded : seedOf (some (.unique identity raw)) = none := if_pos retired
  unfold resolveSingleInstanceIdentity at resolved
  split at resolved
  next => cases resolved
  next singleInstanceDir _ =>
  rw [isRegistry, ok_bind, undirected.noIdentity, undirected.noPool, undirected.presetEnvValue,
    undirected.matched, isMatch] at resolved
  dsimp only at resolved
  rw [ok_bind, unseeded] at resolved
  dsimp only at resolved
  split at resolved
  next =>
    split at resolved
    next =>
      obtain ⟨⟨picked, created⟩, -, resolved⟩ := (bind_eq_ok _ _ _).mp resolved
      obtain rfl := Except.ok.inj resolved
      cases created <;> simp [promptSource]
    next => cases resolved
  next =>
    obtain rfl := Except.ok.inj resolved
    nofun

def gone : Identity := ⟨"gone", "/c/gone", ["/work/old/*"], [], true, none, none⟩

def main : Identity := ⟨"main", "/c/main", ["/work/*"], [], false, none, none⟩

def launch : ResolveDeps := ⟨plainPaths, .ok [gone, main], false, .cancelled⟩

def claude : ToolConfig := ⟨"claude", "CLAUDE_CONFIG_DIR", none⟩

def inOld : ResolveOptions := ⟨none, none, none, "/work/old/src", fun _ => none, true⟩

end AiSwitcher.Resolution
