/-
This file embeds the registry merge of `src/sync/registry.ts`. After a pull,
`mergeRegistryConflict` unions the live registry with the one it replaced,
identity by identity, and saves the result without validating it again.

The merge of two accepted registries always passes the checks that look at one
identity. What it can break is global: an alias on one host may be a name or an
alias on the other, and a legacy container may be recognised from members of
different hosts. The last section states exactly when neither happens.
-/

import Mathlib.Order.Lattice
import AiSwitcher.Identities.Retired
import AiSwitcher.Library.Lists

namespace AiSwitcher

open JavaScript

/-! ### Merging one identity -/

def memberStrings (object : Object) (key : String) : Option (List String) :=
  (object.get key).bind Json.asStrings?

/-- `[...new Set([...primary, ...secondary])]`, `undefined` when empty. -/
def mergeStrings (primary secondary : Option (List String)) : Option (List String) :=
  let merged := (primary.getD [] ++ secondary.getD []).eraseDups
  if merged.isEmpty then none else some merged

def jsonStrings (strings : List String) : Json :=
  .arr (strings.map .str)

/-- The side with the newest retire/unretire event, the primary on a tie; `none` without any
event. -/
def retirementWinner (runtime : Runtime) (primary secondary : Object) : Option Object :=
  match lastRetirementEventMs runtime primary, lastRetirementEventMs runtime secondary with
  | none, none => none
  | some primaryMs, some secondaryMs => some (if primaryMs < secondaryMs then secondary else primary)
  | none, some _ => some secondary
  | some _, none => some primary

def mergeRetirement (runtime : Runtime) (merged primary secondary : Object) : Object :=
  match retirementWinner runtime primary secondary with
  | none => merged
  | some winner =>
      ["retired", "retiredAt", "unretiredAt"].foldl
        (fun merged key => merged.assign key (winner.get key)) merged

def poolOf (identity : Object) : Option Object :=
  (identity.get "swapPool").bind Json.asObject?

/-- The pool of an identity that is one on both hosts. -/
def mergedPool (primary secondary : Object) : Object :=
  let accounts := (mergeStrings (memberStrings primary "accounts")
    (memberStrings secondary "accounts")).getD []
  let next := (secondary.spread primary).assign "accounts" (some (jsonStrings accounts))
  if (primary.get "active").isNone && (secondary.get "active").isSome then
    next.assign "active" (secondary.get "active")
  else next

def mergeSwapPool (merged primary secondary : Object) : Object :=
  match poolOf primary, poolOf secondary with
  | none, none => merged
  | some pool, none => merged.assign "swapPool" (some (.obj pool))
  | none, some pool => merged.assign "swapPool" (some (.obj pool))
  | some primaryPool, some secondaryPool =>
      merged.assign "swapPool" (some (.obj (mergedPool primaryPool secondaryPool)))

def mergeIdentity (runtime : Runtime) (primary secondary : Object) : Object :=
  let directories := mergeStrings (memberStrings primary "directories")
    (memberStrings secondary "directories")
  let aliases := mergeStrings (memberStrings primary "aliases") (memberStrings secondary "aliases")
  let merged := ((secondary.spread primary).assign "directories"
    (directories.map jsonStrings)).assign "aliases" (aliases.map jsonStrings)
  mergeSwapPool (mergeRetirement runtime merged primary secondary) primary secondary

/-! ### Synthetic legacy session containers -/

def legacyTools : List String := ["Claude", "Codex", "Grok", "Kimi", "Zai"]

def isHostCharacter (character : Char) : Bool :=
  character.isAlphanum || character == '.' || character == '_' || character == '-'

/-- `/^Preserved pre-AIS (?:Claude|Codex|Grok|Kimi|Zai) sessions from [A-Za-z0-9._-]+$/` -/
def isLegacyDescription (description : String) : Bool :=
  legacyTools.any fun tool =>
    let start := "Preserved pre-AIS " ++ tool ++ " sessions from "
    let host := description.toList.drop start.toList.length
    startsWith description start && !host.isEmpty && host.all isHostCharacter

/-- The test on the three members it reads. -/
def isLegacyContainer (name description configDir : String) : Bool :=
  let withoutSlash := if endsWith configDir "/" then sliceToEnd configDir 1 else configDir
  endsWith name "-legacy" && isLegacyDescription description &&
    endsWith withoutSlash ("/identities/" ++ name)

/-- The string member `description`. -/
def descriptionOf (identity : Object) : Option String :=
  (identity.get "description").bind Json.asString?

def isSyntheticLegacySessionContainer (identity : Object) : Bool :=
  isLegacyContainer (nameOf identity) ((descriptionOf identity).getD "") (configDirOf identity)

/-! ### `mergeRegistryConflict` -/

/-- `new Map(identities.map((identity) => [identity.name, identity]))` -/
def byName (identities : List Object) : Members Object :=
  identities.foldl (fun map identity => map.set (nameOf identity) identity) []

/-- The `map` over the primary's identities, which takes each counterpart out of `byName`. -/
def mergePrimary (runtime : Runtime) : Members Object → List Object → List Object × Members Object
  | map, [] => ([], map)
  | map, identity :: rest =>
      let entry := match map.get (nameOf identity) with
        | some other => mergeIdentity runtime identity other
        | none => identity
      let (merged, left) := mergePrimary runtime (map.delete (nameOf identity)) rest
      (entry :: merged, left)

/-- The identities of both registries, merged by name. -/
def mergeIdentities (runtime : Runtime) (primary secondary : List Object) : List Object :=
  let (merged, left) := mergePrimary runtime (byName secondary) primary
  merged ++ left.map Prod.snd

/-- What is left of the overrides of both registries when later repetitions are dropped. -/
def mergeOverrides (primary secondary : IdentitiesFile) : List Json :=
  (primary.chromeProfileOverrides.getD [] ++ secondary.chromeProfileOverrides.getD []).eraseDups

/-- The registry that is saved, before the paths are translated. -/
def mergeFiles (runtime : Runtime) (primary secondary : IdentitiesFile) : IdentitiesFile :=
  let identities := mergeIdentities runtime primary.identities secondary.identities
  let overrides := mergeOverrides primary secondary
  { identities := identities.filter fun identity => !isSyntheticLegacySessionContainer identity
    chromeProfileOverrides := if overrides.isEmpty then none else some overrides }

/-- The parsed live and previous registry, the one modified last first. -/
def bySeniority (live previous : IdentitiesFile) (liveMtime previousMtime : ℚ) :
    IdentitiesFile × IdentitiesFile :=
  if previousMtime ≤ liveMtime then (live, previous) else (previous, live)

/-- The new content of the live registry; `none` when one of the files is missing and nothing is
written. -/
def mergeRegistryConflict (runtime : Runtime) (live previous : Option Json)
    (liveMtime previousMtime : ℚ) : Except String (Option Json) :=
  match live, previous with
  | some live, some previous => do
      let live ← parseIdentitiesFile runtime live
      let previous ← parseIdentitiesFile runtime previous
      let (primary, secondary) := bySeniority live previous liveMtime previousMtime
      .ok (some (saveIdentitiesFile runtime (mergeFiles runtime primary secondary)))
  | _, _ => .ok none

/-! ### Members of a merged identity -/

theorem getD_mergeStrings (primary secondary : Option (List String)) :
    (mergeStrings primary secondary).getD [] =
      (primary.getD [] ++ secondary.getD []).eraseDups := by
  rw [mergeStrings]
  split
  · rename_i empty
    rw [List.isEmpty_iff.mp empty, Option.getD_none]
  · rw [Option.getD_some]

theorem mem_mergeStrings (primary secondary : Option (List String)) (text : String) :
    text ∈ (mergeStrings primary secondary).getD [] ↔
      text ∈ primary.getD [] ∨ text ∈ secondary.getD [] := by
  rw [getD_mergeStrings, List.mem_eraseDups, List.mem_append]

theorem nodup_mergeStrings (primary secondary : Option (List String)) :
    ((mergeStrings primary secondary).getD []).Nodup := by
  rw [getD_mergeStrings]
  exact List.nodup_eraseDups _

theorem stringsOf_eq (object : Object) (key : String) :
    stringsOf object key = (memberStrings object key).getD [] := rfl

theorem asStrings?_jsonStrings (strings : List String) :
    (jsonStrings strings).asStrings? = some strings :=
  Json.asStrings?_strings strings

theorem isNonEmptyStringArray_jsonStrings (strings : List String)
    (present : ∀ text ∈ strings, text ≠ "") : isNonEmptyStringArray (jsonStrings strings) := by
  simpa [isNonEmptyStringArray, asStrings?_jsonStrings] using present

/-- The strings of a checked member are not empty. -/
theorem ne_empty_of_mem_stringsOf {object : Object} {key : String}
    (valid : (object.get key).all isNonEmptyStringArray) {text : String}
    (member : text ∈ stringsOf object key) : text ≠ "" := by
  rw [stringsOf] at member
  cases found : object.get key with
  | none => simp [found] at member
  | some value =>
    cases strings : value.asStrings? with
    | none => simp [found, strings] at member
    | some texts =>
      have present : text ∈ texts := by simpa [found, strings] using member
      have all : ∀ other ∈ texts, other ≠ "" := by
        simpa [found, isNonEmptyStringArray, strings] using valid
      exact all text present

theorem get_mergeSwapPool_of_ne (merged primary secondary : Object) (key : String)
    (other : key ≠ "swapPool") :
    (mergeSwapPool merged primary secondary).get key = merged.get key := by
  unfold mergeSwapPool
  split <;> simp [other]

theorem get_mergeRetirement (runtime : Runtime) (merged primary secondary : Object)
    (key : String) :
    (mergeRetirement runtime merged primary secondary).get key =
      match retirementWinner runtime primary secondary with
      | none => merged.get key
      | some winner =>
          if key ∈ ["retired", "retiredAt", "unretiredAt"] then winner.get key
          else merged.get key := by
  unfold mergeRetirement
  cases retirementWinner runtime primary secondary with
  | none => rfl
  | some winner =>
    simp only [List.foldl_cons, List.foldl_nil, Members.get_assign, List.mem_cons, List.not_mem_nil,
      or_false]
    by_cases unretiredAt : key = "unretiredAt"
    · simp [unretiredAt]
    · by_cases retiredAt : key = "retiredAt"
      · simp [retiredAt]
      · by_cases retired : key = "retired"
        · simp [retired]
        · simp [unretiredAt, retiredAt, retired]

/-- A member no rule of the merge is about comes from the primary, else from the secondary. -/
theorem get_mergeIdentity_of_plain (runtime : Runtime) (primary secondary : Object) (key : String)
    (plain : key ∉ ["swapPool", "retired", "retiredAt", "unretiredAt", "aliases", "directories"]) :
    (mergeIdentity runtime primary secondary).get key =
      (primary.get key).or (secondary.get key) := by
  simp only [List.mem_cons, List.not_mem_nil, or_false, not_or] at plain
  obtain ⟨swapPool, retired, retiredAt, unretiredAt, aliases, directories⟩ := plain
  rw [mergeIdentity, get_mergeSwapPool_of_ne _ _ _ _ swapPool, get_mergeRetirement]
  cases retirementWinner runtime primary secondary <;>
    simp [retired, retiredAt, unretiredAt, aliases, directories]

/-- A retirement member is the winner's, or the plain merge when there was no event. -/
theorem get_mergeIdentity_of_retirement (runtime : Runtime) (primary secondary : Object)
    (key : String) (retirement : key ∈ ["retired", "retiredAt", "unretiredAt"]) :
    (mergeIdentity runtime primary secondary).get key =
      match retirementWinner runtime primary secondary with
      | none => (primary.get key).or (secondary.get key)
      | some winner => winner.get key := by
  have others : key ≠ "swapPool" ∧ key ≠ "aliases" ∧ key ≠ "directories" := by
    simp only [List.mem_cons, List.not_mem_nil, or_false] at retirement
    rcases retirement with rfl | rfl | rfl <;> decide
  rw [mergeIdentity, get_mergeSwapPool_of_ne _ _ _ _ others.1, get_mergeRetirement]
  cases retirementWinner runtime primary secondary <;> simp [retirement, others]

theorem get_mergeIdentity_aliases (runtime : Runtime) (primary secondary : Object) :
    (mergeIdentity runtime primary secondary).get "aliases" =
      (mergeStrings (memberStrings primary "aliases")
        (memberStrings secondary "aliases")).map jsonStrings := by
  rw [mergeIdentity, get_mergeSwapPool_of_ne _ _ _ _ (by decide), get_mergeRetirement]
  cases retirementWinner runtime primary secondary <;> simp

theorem get_mergeIdentity_directories (runtime : Runtime) (primary secondary : Object) :
    (mergeIdentity runtime primary secondary).get "directories" =
      (mergeStrings (memberStrings primary "directories")
        (memberStrings secondary "directories")).map jsonStrings := by
  rw [mergeIdentity, get_mergeSwapPool_of_ne _ _ _ _ (by decide), get_mergeRetirement]
  cases retirementWinner runtime primary secondary <;> simp

/-- The strings of a member that was assigned merged strings. -/
theorem stringsOf_of_get_eq_map_jsonStrings {object : Object} {key : String}
    {strings : Option (List String)} (found : object.get key = strings.map jsonStrings) :
    stringsOf object key = strings.getD [] := by
  rw [stringsOf, found]
  cases strings with
  | none => rfl
  | some texts => simp [asStrings?_jsonStrings]

theorem nameOf_mergeIdentity (runtime : Runtime) (primary secondary : Object)
    (named : (primary.get "name").any isNonEmptyString) :
    nameOf (mergeIdentity runtime primary secondary) = nameOf primary := by
  rw [nameOf, nameOf, get_mergeIdentity_of_plain _ _ _ _ (by decide)]
  cases found : primary.get "name" with
  | none => simp [found] at named
  | some value => rfl

/-! ### A merged identity is valid -/

theorem any_or {Value : Type} {check : Value → Bool} {primary secondary : Option Value}
    (valid : primary.any check = true) : (primary.or secondary).any check = true := by
  cases primary with
  | none => simp at valid
  | some value => exact valid

theorem all_or {Value : Type} {check : Value → Bool} {primary secondary : Option Value}
    (validPrimary : primary.all check = true) (validSecondary : secondary.all check = true) :
    (primary.or secondary).all check = true := by
  cases primary with
  | none => exact validSecondary
  | some value => exact validPrimary

theorem all_mergeStrings {primary secondary : Object} {key : String}
    (validPrimary : (primary.get key).all isNonEmptyStringArray)
    (validSecondary : (secondary.get key).all isNonEmptyStringArray) :
    ((mergeStrings (memberStrings primary key) (memberStrings secondary key)).map jsonStrings).all
      isNonEmptyStringArray := by
  have present : ∀ text ∈ (mergeStrings (memberStrings primary key)
      (memberStrings secondary key)).getD [], text ≠ "" := by
    intro text member
    rcases (mem_mergeStrings _ _ _).mp member with inPrimary | inSecondary
    · exact ne_empty_of_mem_stringsOf validPrimary inPrimary
    · exact ne_empty_of_mem_stringsOf validSecondary inSecondary
  cases merged : mergeStrings (memberStrings primary key) (memberStrings secondary key) with
  | none => rfl
  | some texts =>
    rw [merged] at present
    exact isNonEmptyStringArray_jsonStrings texts present

theorem all_of_any {check : Json → Bool} {value : Option Json} (valid : value.any check = true) :
    value.all check = true := by
  cases value with
  | none => rfl
  | some value => exact valid

theorem get_mergedPool_accounts (primary secondary : Object) :
    (mergedPool primary secondary).get "accounts" =
      some (jsonStrings ((mergeStrings (memberStrings primary "accounts")
        (memberStrings secondary "accounts")).getD [])) := by
  unfold mergedPool
  split <;> simp

theorem get_mergedPool_of_ne (primary secondary : Object) (key : String)
    (other : key ≠ "accounts") :
    (mergedPool primary secondary).get key = (primary.get key).or (secondary.get key) := by
  unfold mergedPool
  split
  · rename_i inherited
    rw [Bool.and_eq_true, Option.isNone_iff_eq_none] at inherited
    by_cases active : key = "active"
    · subst active
      simp [inherited.1]
    · simp [other, active]
  · simp [other]

theorem stringsOf_mergedPool_accounts (primary secondary : Object) :
    stringsOf (mergedPool primary secondary) "accounts" =
      (mergeStrings (memberStrings primary "accounts")
        (memberStrings secondary "accounts")).getD [] := by
  rw [stringsOf, get_mergedPool_accounts]
  simp [asStrings?_jsonStrings]

/-- The union of the accounts keeps every subset rule: what one side named is among its own
accounts, hence among the merged ones. -/
theorem ValidSwapPool.merged {primary secondary : Object} {owner : String}
    (validPrimary : ValidSwapPool primary owner) (validSecondary : ValidSwapPool secondary owner) :
    ValidSwapPool (mergedPool primary secondary) owner := by
  have accounts := stringsOf_mergedPool_accounts primary secondary
  have mem : ∀ name, name ∈ stringsOf (mergedPool primary secondary) "accounts" ↔
      name ∈ stringsOf primary "accounts" ∨ name ∈ stringsOf secondary "accounts" := by
    intro name
    rw [accounts]
    exact mem_mergeStrings _ _ _
  have weaken : ∀ {pool : Object}, (∀ name ∈ stringsOf pool "accounts",
      name ∈ stringsOf (mergedPool primary secondary) "accounts") → ∀ {value : Option Json},
      value.all (fun active => active.asString?.any (stringsOf pool "accounts").contains) = true →
      value.all (fun active => active.asString?.any
        (stringsOf (mergedPool primary secondary) "accounts").contains) = true := by
    intro pool subset value valid
    cases value with
    | none => rfl
    | some active =>
      cases text : active.asString? with
      | none => simp [text] at valid
      | some name =>
        have listed : name ∈ stringsOf pool "accounts" := by simpa [text] using valid
        simpa [text] using subset name listed
  have fromPrimary : ∀ name ∈ stringsOf primary "accounts",
      name ∈ stringsOf (mergedPool primary secondary) "accounts" :=
    fun name member => (mem name).mpr (Or.inl member)
  have fromSecondary : ∀ name ∈ stringsOf secondary "accounts",
      name ∈ stringsOf (mergedPool primary secondary) "accounts" :=
    fun name member => (mem name).mpr (Or.inr member)
  constructor
  case accounts =>
    rw [get_mergedPool_accounts]
    refine isNonEmptyStringArray_jsonStrings _ fun text member => ?_
    rcases (mem_mergeStrings _ _ _).mp member with inPrimary | inSecondary
    · exact ne_empty_of_mem_stringsOf (all_of_any validPrimary.accounts) inPrimary
    · exact ne_empty_of_mem_stringsOf (all_of_any validSecondary.accounts) inSecondary
  case distinct =>
    rw [accounts]
    exact nodup_mergeStrings _ _
  case notItself =>
    rw [mem, not_or]
    exact ⟨validPrimary.notItself, validSecondary.notItself⟩
  case active =>
    rw [get_mergedPool_of_ne _ _ _ (by decide)]
    exact all_or (weaken fromPrimary validPrimary.active) (weaken fromSecondary validSecondary.active)
  case disallowed =>
    rw [get_mergedPool_of_ne _ _ _ (by decide)]
    exact all_or validPrimary.disallowed validSecondary.disallowed
  case disallowedSubset =>
    intro name member
    rw [stringsOf, get_mergedPool_of_ne _ _ _ (by decide)] at member
    cases found : primary.get "disallowed" with
    | none =>
      rw [found] at member
      exact fromSecondary name (validSecondary.disallowedSubset name member)
    | some value =>
      rw [found] at member
      exact fromPrimary name (validPrimary.disallowedSubset name (by rw [stringsOf, found]; exact member))
  case auto =>
    rw [get_mergedPool_of_ne _ _ _ (by decide)]
    exact all_or validPrimary.auto validSecondary.auto
  case thresholdPercent =>
    rw [get_mergedPool_of_ne _ _ _ (by decide)]
    exact all_or validPrimary.thresholdPercent validSecondary.thresholdPercent

/-- The pool of a valid identity, when it has one. -/
theorem ValidIdentity.poolOf {runtime : Runtime} {identity : Object}
    (valid : ValidIdentity runtime identity) :
    (identity.get "swapPool" = none ∧ poolOf identity = none) ∨
      ∃ pool, poolOf identity = some pool ∧ ValidSwapPool pool (nameOf identity) := by
  cases found : identity.get "swapPool" with
  | none => exact Or.inl ⟨rfl, by simp [AiSwitcher.poolOf, found]⟩
  | some value =>
    obtain ⟨pool, object, validPool⟩ := valid.swapPool value found
    exact Or.inr ⟨pool, by simp [AiSwitcher.poolOf, found, object], validPool⟩

theorem mergeSwapPool_valid {runtime : Runtime} {primary secondary merged : Object}
    (validPrimary : ValidIdentity runtime primary)
    (validSecondary : ValidIdentity runtime secondary) (sameName : nameOf primary = nameOf secondary)
    (spread : merged.get "swapPool" = (primary.get "swapPool").or (secondary.get "swapPool"))
    (value : Json) (found : (mergeSwapPool merged primary secondary).get "swapPool" = some value) :
    ∃ pool, value.asObject? = some pool ∧ ValidSwapPool pool (nameOf primary) := by
  unfold mergeSwapPool at found
  obtain ⟨noPrimary, primaryPool⟩ | ⟨primaryPool, isPrimary, validPool⟩ := validPrimary.poolOf <;>
  obtain ⟨noSecondary, secondaryPool⟩ | ⟨secondaryPool, isSecondary, validOther⟩ :=
    validSecondary.poolOf
  · rw [primaryPool, secondaryPool] at found
    simp [spread, noPrimary, noSecondary] at found
  · rw [primaryPool, isSecondary] at found
    simp only [Members.get_assign, if_true, Option.some.injEq] at found
    exact ⟨secondaryPool, by rw [← found]; rfl, sameName ▸ validOther⟩
  · rw [isPrimary, secondaryPool] at found
    simp only [Members.get_assign, if_true, Option.some.injEq] at found
    exact ⟨primaryPool, by rw [← found]; rfl, validPool⟩
  · rw [isPrimary, isSecondary] at found
    simp only [Members.get_assign, if_true, Option.some.injEq] at found
    exact ⟨mergedPool primaryPool secondaryPool, by rw [← found]; rfl,
      validPool.merged (sameName ▸ validOther)⟩

theorem retirement_valid {runtime : Runtime} {primary secondary : Object} {key : String}
    {check : Json → Bool} (retirement : key ∈ ["retired", "retiredAt", "unretiredAt"])
    (validPrimary : (primary.get key).all check = true)
    (validSecondary : (secondary.get key).all check = true) :
    ((mergeIdentity runtime primary secondary).get key).all check = true := by
  rw [get_mergeIdentity_of_retirement runtime primary secondary key retirement]
  unfold retirementWinner
  cases lastRetirementEventMs runtime primary <;> cases lastRetirementEventMs runtime secondary
  · exact all_or validPrimary validSecondary
  · exact validSecondary
  · exact validPrimary
  · show (Members.get (if _ then secondary else primary) key).all check = true
    split
    · exact validSecondary
    · exact validPrimary

/-- Merging two valid identities of one name gives a valid identity. -/
theorem ValidIdentity.merged {runtime : Runtime} {primary secondary : Object}
    (validPrimary : ValidIdentity runtime primary)
    (validSecondary : ValidIdentity runtime secondary)
    (sameName : nameOf primary = nameOf secondary) :
    ValidIdentity runtime (mergeIdentity runtime primary secondary) := by
  have plain := get_mergeIdentity_of_plain runtime primary secondary
  have directories := get_mergeIdentity_directories runtime primary secondary
  constructor
  case name => rw [plain _ (by decide)]; exact any_or validPrimary.name
  case label => rw [plain _ (by decide)]; exact any_or validPrimary.label
  case description =>
    rw [plain _ (by decide)]; exact all_or validPrimary.description validSecondary.description
  case configDir => rw [plain _ (by decide)]; exact any_or validPrimary.configDir
  case directories =>
    rw [directories]
    cases mergeStrings (memberStrings primary "directories")
        (memberStrings secondary "directories") with
    | none => rfl
    | some texts => simp [isStringArray, asStrings?_jsonStrings]
  case patterns =>
    rw [stringsOf_of_get_eq_map_jsonStrings directories]
    intro raw member
    rcases (mem_mergeStrings _ _ _).mp member with inPrimary | inSecondary
    · exact validPrimary.patterns raw inPrimary
    · exact validSecondary.patterns raw inSecondary
  case aliases =>
    rw [get_mergeIdentity_aliases]
    exact all_mergeStrings validPrimary.aliases validSecondary.aliases
  case colour =>
    rw [plain _ (by decide)]; exact all_or validPrimary.colour validSecondary.colour
  case retired =>
    exact retirement_valid (by decide) validPrimary.retired validSecondary.retired
  case retiredAt =>
    exact retirement_valid (by decide) validPrimary.retiredAt validSecondary.retiredAt
  case unretiredAt =>
    exact retirement_valid (by decide) validPrimary.unretiredAt validSecondary.unretiredAt
  case swapPool =>
    intro value found
    rw [nameOf_mergeIdentity _ _ _ validPrimary.name]
    refine mergeSwapPool_valid validPrimary validSecondary sameName ?_ value found
    rw [get_mergeRetirement]
    cases retirementWinner runtime primary secondary <;> simp
  case env => rw [plain _ (by decide)]; exact all_or validPrimary.env validSecondary.env

theorem mem_keysOf_mergeIdentity {runtime : Runtime} {primary secondary : Object}
    (validPrimary : ValidIdentity runtime primary)
    (sameName : nameOf primary = nameOf secondary) (key : String) :
    key ∈ keysOf (mergeIdentity runtime primary secondary) ↔
      key ∈ keysOf primary ∨ key ∈ keysOf secondary := by
  simp only [keysOf, List.mem_cons, nameOf_mergeIdentity _ _ _ validPrimary.name,
    stringsOf_of_get_eq_map_jsonStrings (get_mergeIdentity_aliases runtime primary secondary),
    mem_mergeStrings, ← stringsOf_eq, ← sameName]
  tauto

theorem nodup_keysOf_mergeIdentity {runtime : Runtime} {primary secondary : Object}
    (validPrimary : ValidIdentity runtime primary)
    (sameName : nameOf primary = nameOf secondary) (distinctPrimary : (keysOf primary).Nodup)
    (distinctSecondary : (keysOf secondary).Nodup) :
    (keysOf (mergeIdentity runtime primary secondary)).Nodup := by
  rw [keysOf, List.nodup_cons] at distinctPrimary distinctSecondary ⊢
  rw [nameOf_mergeIdentity _ _ _ validPrimary.name,
    stringsOf_of_get_eq_map_jsonStrings (get_mergeIdentity_aliases runtime primary secondary),
    mem_mergeStrings, not_or]
  refine ⟨⟨distinctPrimary.1, ?_⟩, nodup_mergeStrings _ _⟩
  rw [sameName]
  exact distinctSecondary.1

/-! ### The identities of the union -/

theorem byName_eq_map (identities : List Object) (distinct : (identities.map nameOf).Nodup) :
    byName identities = identities.map fun identity => (nameOf identity, identity) := by
  have fold : ∀ (map : Members Object), (∀ identity ∈ identities, map.hasKey (nameOf identity) = false) →
      identities.foldl (fun map identity => map.set (nameOf identity) identity) map =
        map ++ identities.map fun identity => (nameOf identity, identity) := by
    induction identities with
    | nil => simp
    | cons identity rest inductionHypothesis =>
      intro map absent
      rw [List.map_cons, List.nodup_cons] at distinct
      rw [List.forall_mem_cons] at absent
      rw [List.foldl_cons, Members.set_of_not_hasKey _ _ _ absent.1,
        inductionHypothesis distinct.2, List.append_assoc]
      · rfl
      · intro other member
        have different : nameOf identity ≠ nameOf other := fun equal =>
          distinct.1 (equal ▸ List.mem_map_of_mem member)
        simpa [Members.hasKey, different] using absent.2 other member
  exact fold [] (fun _ _ => rfl)

/-- The entry the merge makes of a primary identity. -/
def mergedEntry (runtime : Runtime) (map : Members Object) (identity : Object) : Object :=
  match map.get (nameOf identity) with
  | some other => mergeIdentity runtime identity other
  | none => identity

/-- The loop merges every primary identity with its counterpart and leaves the entries no primary
identity is named like. -/
theorem mergePrimary_eq (runtime : Runtime) (map : Members Object) (primary : List Object)
    (distinct : (primary.map nameOf).Nodup) :
    mergePrimary runtime map primary =
      (primary.map (mergedEntry runtime map),
        map.filter fun entry => !(primary.map nameOf).contains entry.1) := by
  induction primary generalizing map with
  | nil => simp [mergePrimary]
  | cons identity rest inductionHypothesis =>
    rw [List.map_cons, List.nodup_cons] at distinct
    rw [mergePrimary, inductionHypothesis _ distinct.2]
    refine Prod.ext ?_ ?_
    · refine congrArg (mergedEntry runtime map identity :: ·) (List.map_congr_left ?_)
      intro other member
      have different : nameOf other ≠ nameOf identity := fun equal =>
        distinct.1 (equal ▸ List.mem_map_of_mem member)
      rw [mergedEntry, mergedEntry, Members.get_delete, if_neg different]
    · show (map.delete (nameOf identity)).filter _ = _
      rw [Members.delete, List.filter_filter]
      refine List.filter_congr fun entry _ => ?_
      by_cases same : entry.1 = nameOf identity <;> simp [same]

theorem mergeIdentities_eq (runtime : Runtime) (primary secondary : List Object)
    (distinctPrimary : (primary.map nameOf).Nodup)
    (distinctSecondary : (secondary.map nameOf).Nodup) :
    mergeIdentities runtime primary secondary =
      primary.map (mergedEntry runtime (byName secondary)) ++
        secondary.filter fun identity => !(primary.map nameOf).contains (nameOf identity) := by
  unfold mergeIdentities
  rw [mergePrimary_eq runtime _ primary distinctPrimary, byName_eq_map secondary distinctSecondary]
  show _ ++ List.map Prod.snd (List.filter _ _) = _
  rw [List.filter_map, List.map_map]
  simp [Function.comp_def]

theorem get_byName (identities : List Object) (distinct : (identities.map nameOf).Nodup)
    (name : String) (identity : Object) :
    (byName identities).get name = some identity ↔
      identity ∈ identities ∧ nameOf identity = name := by
  rw [byName_eq_map identities distinct]
  induction identities with
  | nil => simp [Members.get]
  | cons head rest inductionHypothesis =>
    rw [List.map_cons, List.nodup_cons] at distinct
    rw [List.map_cons, Members.get_cons, List.mem_cons]
    by_cases same : nameOf head = name
    · rw [if_pos same, Option.some.injEq]
      constructor
      · rintro rfl
        exact ⟨Or.inl rfl, same⟩
      · rintro ⟨rfl | member, named⟩
        · rfl
        · have present : nameOf head ∈ rest.map nameOf := by
            rw [same, ← named]
            exact List.mem_map_of_mem member
          exact absurd present distinct.1
    · rw [if_neg same, inductionHypothesis distinct.2]
      constructor
      · rintro ⟨member, named⟩
        exact ⟨Or.inr member, named⟩
      · rintro ⟨rfl | member, named⟩
        · exact absurd named same
        · exact ⟨member, named⟩

/-- An identity of the union is the merge of two of one name, or one whose name the other side
does not have. -/
theorem mem_mergeIdentities (runtime : Runtime) (primary secondary : List Object)
    (distinctPrimary : (primary.map nameOf).Nodup)
    (distinctSecondary : (secondary.map nameOf).Nodup) (identity : Object) :
    identity ∈ mergeIdentities runtime primary secondary ↔
      (∃ first ∈ primary, ∃ second ∈ secondary, nameOf second = nameOf first ∧
        identity = mergeIdentity runtime first second) ∨
      (identity ∈ primary ∧ ∀ second ∈ secondary, nameOf second ≠ nameOf identity) ∨
      (identity ∈ secondary ∧ ∀ first ∈ primary, nameOf first ≠ nameOf identity) := by
  have found := get_byName secondary distinctSecondary
  have alone : ∀ name, (byName secondary).get name = none ↔
      ∀ second ∈ secondary, nameOf second ≠ name := by
    intro name
    rw [Option.eq_none_iff_forall_ne_some]
    exact ⟨fun none second member named => none second ((found name second).mpr ⟨member, named⟩),
      fun none second present => none second ((found name second).mp present).1
        ((found name second).mp present).2⟩
  have unnamed : (!(primary.map nameOf).contains (nameOf identity)) = true ↔
      ∀ first ∈ primary, nameOf first ≠ nameOf identity := by
    simp
  rw [mergeIdentities_eq runtime primary secondary distinctPrimary distinctSecondary,
    List.mem_append, List.mem_filter, unnamed, List.mem_map, ← or_assoc]
  refine or_congr_left ?_
  constructor
  · rintro ⟨first, member, rfl⟩
    rw [mergedEntry]
    cases other : (byName secondary).get (nameOf first) with
    | none => exact Or.inr ⟨member, (alone _).mp other⟩
    | some second =>
      obtain ⟨present, named⟩ := (found _ _).mp other
      exact Or.inl ⟨first, member, second, present, named, rfl⟩
  · rintro (⟨first, member, second, present, named, rfl⟩ | ⟨member, unpaired⟩)
    · refine ⟨first, member, ?_⟩
      rw [mergedEntry, (found _ _).mpr ⟨present, named⟩]
    · refine ⟨identity, member, ?_⟩
      rw [mergedEntry, (alone _).mpr unpaired]

theorem nameOf_mergedEntry (runtime : Runtime) (map : Members Object) {identity : Object}
    (valid : ValidIdentity runtime identity) :
    nameOf (mergedEntry runtime map identity) = nameOf identity := by
  rw [mergedEntry]
  split
  · exact nameOf_mergeIdentity _ _ _ valid.name
  · rfl

theorem nodup_names_mergeIdentities (runtime : Runtime) (primary secondary : List Object)
    (valid : ∀ identity ∈ primary, ValidIdentity runtime identity)
    (distinctPrimary : (primary.map nameOf).Nodup)
    (distinctSecondary : (secondary.map nameOf).Nodup) :
    ((mergeIdentities runtime primary secondary).map nameOf).Nodup := by
  have same : (primary.map (mergedEntry runtime (byName secondary))).map nameOf =
      primary.map nameOf := by
    rw [List.map_map]
    exact List.map_congr_left fun identity member =>
      nameOf_mergedEntry runtime _ (valid identity member)
  rw [mergeIdentities_eq runtime primary secondary distinctPrimary distinctSecondary,
    List.map_append, same, List.nodup_append']
  refine ⟨distinctPrimary, distinctSecondary.sublist (List.filter_sublist.map _), ?_⟩
  intro name inPrimary inSecondary
  obtain ⟨identity, member, rfl⟩ := List.mem_map.mp inSecondary
  rw [List.mem_filter] at member
  simp only [Bool.not_eq_true', List.contains_eq_mem, decide_eq_false_iff_not] at member
  exact member.2 inPrimary

/-! ### When the merge is closed -/

/-- The names the merged registry should have: those of the identities of either side that are not
synthetic legacy session containers. -/
def KeptName (first second : IdentitiesFile) (name : String) : Prop :=
  ∃ identity ∈ first.identities ++ second.identities,
    nameOf identity = name ∧ isSyntheticLegacySessionContainer identity = false

/-- No name or alias of an identity on one side is a name or alias of a differently named identity
on the other, as far as both are kept. -/
def DisjointNamespaces (first second : IdentitiesFile) : Prop :=
  ∀ left ∈ first.identities, ∀ right ∈ second.identities, nameOf left ≠ nameOf right →
    KeptName first second (nameOf left) → KeptName first second (nameOf right) →
    (keysOf left).Disjoint (keysOf right)

/-- Where both sides have an identity, the secondary's description (used when the primary has
none) makes a legacy container of it only if it is one on both sides. -/
def LegacyAgrees (primary secondary : IdentitiesFile) : Prop :=
  ∀ first ∈ primary.identities, ∀ second ∈ secondary.identities, nameOf second = nameOf first →
    isLegacyContainer (nameOf first)
      (((descriptionOf first).or (descriptionOf second)).getD "") (configDirOf first) = true →
    isSyntheticLegacySessionContainer first = true ∧
      isSyntheticLegacySessionContainer second = true

/-- The saved file is accepted and has exactly the names to keep. -/
def IsClosedUnion (runtime : Runtime) (live previous : IdentitiesFile) (saved : Json) : Prop :=
  ∃ parsed, parseIdentitiesFile runtime saved = .ok parsed ∧
    ∀ name, name ∈ parsed.identities.map nameOf ↔ KeptName live previous name

theorem descriptionOf_mergeIdentity (runtime : Runtime) {primary secondary : Object}
    (valid : ValidIdentity runtime primary) :
    descriptionOf (mergeIdentity runtime primary secondary) =
      (descriptionOf primary).or (descriptionOf secondary) := by
  have description := valid.description
  rw [descriptionOf, get_mergeIdentity_of_plain _ _ _ _ (by decide), descriptionOf, descriptionOf]
  cases found : primary.get "description" with
  | none => rfl
  | some value =>
    cases text : value.asString? with
    | none => simp [found, isString, text] at description
    | some string => simp [text]

theorem configDirOf_mergeIdentity (runtime : Runtime) {primary secondary : Object}
    (valid : ValidIdentity runtime primary) :
    configDirOf (mergeIdentity runtime primary secondary) = configDirOf primary := by
  have configDir := valid.configDir
  rw [configDirOf, get_mergeIdentity_of_plain _ _ _ _ (by decide), configDirOf]
  cases found : primary.get "configDir" with
  | none => simp [found] at configDir
  | some value => rfl

theorem isSyntheticLegacySessionContainer_mergeIdentity (runtime : Runtime)
    {primary secondary : Object} (valid : ValidIdentity runtime primary) :
    isSyntheticLegacySessionContainer (mergeIdentity runtime primary secondary) =
      isLegacyContainer (nameOf primary)
        (((descriptionOf primary).or (descriptionOf secondary)).getD "") (configDirOf primary) := by
  rw [isSyntheticLegacySessionContainer, nameOf_mergeIdentity _ _ _ valid.name,
    descriptionOf_mergeIdentity _ valid, configDirOf_mergeIdentity _ valid]

/-- A container on the primary stays one: it has the description. -/
theorem isLegacyContainer_of_primary {primary secondary : Object}
    (synthetic : isSyntheticLegacySessionContainer primary = true) :
    isLegacyContainer (nameOf primary)
      (((descriptionOf primary).or (descriptionOf secondary)).getD "") (configDirOf primary) =
      true := by
  cases given : descriptionOf primary with
  | none =>
    rw [isSyntheticLegacySessionContainer, given] at synthetic
    have empty : isLegacyDescription "" = false := by decide
    simp [isLegacyContainer, empty] at synthetic
  | some description =>
    rw [isSyntheticLegacySessionContainer, given] at synthetic
    exact synthetic

section Union

variable {runtime : Runtime} {primary secondary : IdentitiesFile}

/-- What a valid file says about its keys, identity by identity. -/
theorem ValidFile.keys {file : IdentitiesFile} (valid : ValidFile runtime file) :
    (∀ identity ∈ file.identities, (keysOf identity).Nodup) ∧
      (file.identities.map nameOf).Nodup ∧
      ∀ left ∈ file.identities, ∀ right ∈ file.identities, nameOf left ≠ nameOf right →
        (keysOf left).Disjoint (keysOf right) := by
  have distinct := valid.namespaces
  rw [List.nodup_flatMap] at distinct
  have names : (file.identities.map nameOf).Nodup := by
    rw [List.Nodup, List.pairwise_map]
    refine distinct.2.imp fun {left right} disjoint equal => ?_
    exact disjoint List.mem_cons_self (equal ▸ List.mem_cons_self)
  refine ⟨distinct.1, names, ?_⟩
  exact (List.pairwise_iff_of_nodup_map nameOf (fun _ _ disjoint => List.disjoint_symm disjoint) names).mp
    distinct.2

theorem eq_of_nameOf_eq {identities : List Object} (distinct : (identities.map nameOf).Nodup)
    {left right : Object} (leftMember : left ∈ identities) (rightMember : right ∈ identities)
    (same : nameOf left = nameOf right) : left = right :=
  List.inj_on_of_nodup_map distinct leftMember rightMember same

/-- The keys of an identity of the union are those of the identities of its name. -/
theorem mem_keysOf_union (validPrimary : ValidFile runtime primary)
    (validSecondary : ValidFile runtime secondary) {identity : Object}
    (member : identity ∈ mergeIdentities runtime primary.identities secondary.identities)
    (key : String) :
    key ∈ keysOf identity ↔ ∃ source ∈ primary.identities ++ secondary.identities,
      nameOf source = nameOf identity ∧ key ∈ keysOf source := by
  have uniquePrimary := fun {left right : Object} =>
    @eq_of_nameOf_eq primary.identities validPrimary.keys.2.1 left right
  have uniqueSecondary := fun {left right : Object} =>
    @eq_of_nameOf_eq secondary.identities validSecondary.keys.2.1 left right
  rcases (mem_mergeIdentities _ _ _ validPrimary.keys.2.1 validSecondary.keys.2.1 _).mp member with
    ⟨first, inPrimary, second, inSecondary, named, rfl⟩ | ⟨inPrimary, alone⟩ | ⟨inSecondary, alone⟩
  · have valid := validPrimary.identities first inPrimary
    rw [mem_keysOf_mergeIdentity valid named.symm, nameOf_mergeIdentity _ _ _ valid.name]
    constructor
    · rintro (inFirst | inSecond)
      · exact ⟨first, List.mem_append_left _ inPrimary, rfl, inFirst⟩
      · exact ⟨second, List.mem_append_right _ inSecondary, named, inSecond⟩
    · rintro ⟨source, present, same, keyMember⟩
      rcases List.mem_append.mp present with inFirst | inSecond
      · exact Or.inl (uniquePrimary inFirst inPrimary same ▸ keyMember)
      · exact Or.inr (uniqueSecondary inSecond inSecondary (same.trans named.symm) ▸ keyMember)
  · constructor
    · exact fun keyMember => ⟨identity, List.mem_append_left _ inPrimary, rfl, keyMember⟩
    · rintro ⟨source, present, same, keyMember⟩
      rcases List.mem_append.mp present with inFirst | inSecond
      · exact uniquePrimary inFirst inPrimary same ▸ keyMember
      · exact absurd same (alone source inSecond)
  · constructor
    · exact fun keyMember => ⟨identity, List.mem_append_right _ inSecondary, rfl, keyMember⟩
    · rintro ⟨source, present, same, keyMember⟩
      rcases List.mem_append.mp present with inFirst | inSecond
      · exact absurd same (alone source inFirst)
      · exact uniqueSecondary inSecond inSecondary same ▸ keyMember

/-- Every name of either side is a name of the union. -/
theorem exists_union_of_mem (validPrimary : ValidFile runtime primary)
    (validSecondary : ValidFile runtime secondary) {source : Object}
    (member : source ∈ primary.identities ++ secondary.identities) :
    ∃ identity ∈ mergeIdentities runtime primary.identities secondary.identities,
      nameOf identity = nameOf source := by
  have inversion := mem_mergeIdentities runtime primary.identities secondary.identities
    validPrimary.keys.2.1 validSecondary.keys.2.1
  rcases List.mem_append.mp member with inPrimary | inSecondary
  · by_cases paired : ∃ second ∈ secondary.identities, nameOf second = nameOf source
    · obtain ⟨second, present, named⟩ := paired
      exact ⟨mergeIdentity runtime source second,
        (inversion _).mpr (Or.inl ⟨source, inPrimary, second, present, named, rfl⟩),
        nameOf_mergeIdentity _ _ _ (validPrimary.identities source inPrimary).name⟩
    · exact ⟨source, (inversion _).mpr (Or.inr (Or.inl ⟨inPrimary, by simpa using paired⟩)), rfl⟩
  · by_cases paired : ∃ first ∈ primary.identities, nameOf first = nameOf source
    · obtain ⟨first, present, named⟩ := paired
      exact ⟨mergeIdentity runtime first source,
        (inversion _).mpr (Or.inl ⟨first, present, source, inSecondary, named.symm, rfl⟩),
        (nameOf_mergeIdentity _ _ _ (validPrimary.identities first present).name).trans named⟩
    · exact ⟨source, (inversion _).mpr (Or.inr (Or.inr ⟨inSecondary, by simpa using paired⟩)), rfl⟩

/-- Every identity of the union passes its own checks. -/
theorem valid_of_mem_union (validPrimary : ValidFile runtime primary)
    (validSecondary : ValidFile runtime secondary) {identity : Object}
    (member : identity ∈ mergeIdentities runtime primary.identities secondary.identities) :
    ValidIdentity runtime identity ∧ (keysOf identity).Nodup := by
  rcases (mem_mergeIdentities _ _ _ validPrimary.keys.2.1 validSecondary.keys.2.1 _).mp member with
    ⟨first, inPrimary, second, inSecondary, named, rfl⟩ | ⟨inPrimary, -⟩ | ⟨inSecondary, -⟩
  · have valid := validPrimary.identities first inPrimary
    exact ⟨valid.merged (validSecondary.identities second inSecondary) named.symm,
      nodup_keysOf_mergeIdentity valid named.symm (validPrimary.keys.1 first inPrimary)
        (validSecondary.keys.1 second inSecondary)⟩
  · exact ⟨validPrimary.identities identity inPrimary, validPrimary.keys.1 identity inPrimary⟩
  · exact ⟨validSecondary.identities identity inSecondary,
      validSecondary.keys.1 identity inSecondary⟩

/-- Where the sides agree on containers, an identity of the union is one exactly when its name is
not to be kept. -/
theorem isSynthetic_union_iff (validPrimary : ValidFile runtime primary)
    (validSecondary : ValidFile runtime secondary) (agrees : LegacyAgrees primary secondary)
    {identity : Object}
    (member : identity ∈ mergeIdentities runtime primary.identities secondary.identities) :
    isSyntheticLegacySessionContainer identity = false ↔
      KeptName primary secondary (nameOf identity) := by
  rcases (mem_mergeIdentities _ _ _ validPrimary.keys.2.1 validSecondary.keys.2.1 _).mp member with
    ⟨first, inPrimary, second, inSecondary, named, rfl⟩ | ⟨inPrimary, alone⟩ | ⟨inSecondary, alone⟩
  · have valid := validPrimary.identities first inPrimary
    rw [isSyntheticLegacySessionContainer_mergeIdentity _ valid, nameOf_mergeIdentity _ _ _ valid.name]
    constructor
    · intro kept
      cases synthetic : isSyntheticLegacySessionContainer first with
      | false => exact ⟨first, List.mem_append_left _ inPrimary, rfl, synthetic⟩
      | true => rw [isLegacyContainer_of_primary synthetic] at kept; cases kept
    · rintro ⟨source, present, same, kept⟩
      refine Bool.eq_false_of_not_eq_true fun synthetic => ?_
      obtain ⟨firstSynthetic, secondSynthetic⟩ :=
        agrees first inPrimary second inSecondary named synthetic
      rcases List.mem_append.mp present with inFirst | inSecond
      · rw [eq_of_nameOf_eq validPrimary.keys.2.1 inFirst inPrimary same, firstSynthetic] at kept
        cases kept
      · rw [eq_of_nameOf_eq validSecondary.keys.2.1 inSecond inSecondary (same.trans named.symm),
          secondSynthetic] at kept
        cases kept
  · constructor
    · exact fun kept => ⟨identity, List.mem_append_left _ inPrimary, rfl, kept⟩
    · rintro ⟨source, present, same, kept⟩
      rcases List.mem_append.mp present with inFirst | inSecond
      · exact eq_of_nameOf_eq validPrimary.keys.2.1 inFirst inPrimary same ▸ kept
      · exact absurd same (alone source inSecond)
  · constructor
    · exact fun kept => ⟨identity, List.mem_append_right _ inSecondary, rfl, kept⟩
    · rintro ⟨source, present, same, kept⟩
      rcases List.mem_append.mp present with inFirst | inSecond
      · exact absurd same (alone source inFirst)
      · exact eq_of_nameOf_eq validSecondary.keys.2.1 inSecond inSecondary same ▸ kept

/-- The identities that are saved. -/
theorem mem_mergeFiles {identity : Object} :
    identity ∈ (mergeFiles runtime primary secondary).identities ↔
      identity ∈ mergeIdentities runtime primary.identities secondary.identities ∧
        isSyntheticLegacySessionContainer identity = false := by
  simp [mergeFiles, List.mem_filter]

/-- The saved names are the names to keep exactly when the sides agree on containers. -/
theorem names_mergeFiles_iff (validPrimary : ValidFile runtime primary)
    (validSecondary : ValidFile runtime secondary) :
    (∀ name, name ∈ (mergeFiles runtime primary secondary).identities.map nameOf ↔
      KeptName primary secondary name) ↔ LegacyAgrees primary secondary := by
  constructor
  · intro names first inPrimary second inSecondary named synthetic
    have valid := validPrimary.identities first inPrimary
    have merged : mergeIdentity runtime first second ∈
        mergeIdentities runtime primary.identities secondary.identities :=
      (mem_mergeIdentities _ _ _ validPrimary.keys.2.1 validSecondary.keys.2.1 _).mpr
        (Or.inl ⟨first, inPrimary, second, inSecondary, named, rfl⟩)
    -- The merged entry is dropped, so no other entry may stand for its name.
    have dropped : ¬ KeptName primary secondary (nameOf first) := by
      intro kept
      obtain ⟨other, member, same⟩ := List.mem_map.mp ((names _).mpr kept)
      obtain ⟨inUnion, otherKept⟩ := mem_mergeFiles.mp member
      have equal : other = mergeIdentity runtime first second :=
        eq_of_nameOf_eq (nodup_names_mergeIdentities _ _ _ validPrimary.identities
          validPrimary.keys.2.1 validSecondary.keys.2.1) inUnion merged
          (same.trans (nameOf_mergeIdentity _ _ _ valid.name).symm)
      rw [equal, isSyntheticLegacySessionContainer_mergeIdentity _ valid, synthetic] at otherKept
      cases otherKept
    constructor
    · refine Bool.eq_true_of_not_eq_false fun kept => dropped ?_
      exact ⟨first, List.mem_append_left _ inPrimary, rfl, kept⟩
    · refine Bool.eq_true_of_not_eq_false fun kept => dropped ?_
      exact ⟨second, List.mem_append_right _ inSecondary, named, kept⟩
  · intro agrees name
    have synthetic := fun {identity : Object} =>
      @isSynthetic_union_iff runtime primary secondary validPrimary validSecondary agrees identity
    constructor
    · intro present
      obtain ⟨identity, member, rfl⟩ := List.mem_map.mp present
      obtain ⟨inUnion, kept⟩ := mem_mergeFiles.mp member
      exact (synthetic inUnion).mp kept
    · intro kept
      obtain ⟨source, member, rfl, -⟩ := id kept
      obtain ⟨identity, inUnion, same⟩ := exists_union_of_mem validPrimary validSecondary member
      rw [← same] at kept ⊢
      exact List.mem_map_of_mem (mem_mergeFiles.mpr ⟨inUnion, (synthetic inUnion).mpr kept⟩)

/-- Given the names, the saved keys have no duplicate exactly when the namespaces of the two sides
are disjoint. -/
theorem nodup_keys_mergeFiles_iff (validPrimary : ValidFile runtime primary)
    (validSecondary : ValidFile runtime secondary)
    (names : ∀ name, name ∈ (mergeFiles runtime primary secondary).identities.map nameOf ↔
      KeptName primary secondary name) :
    ((mergeFiles runtime primary secondary).identities.flatMap keysOf).Nodup ↔
      DisjointNamespaces primary secondary := by
  have distinct : ((mergeFiles runtime primary secondary).identities.map nameOf).Nodup :=
    (nodup_names_mergeIdentities _ _ _ validPrimary.identities validPrimary.keys.2.1
      validSecondary.keys.2.1).sublist (List.filter_sublist.map _)
  have own : ∀ identity ∈ (mergeFiles runtime primary secondary).identities,
      (keysOf identity).Nodup := fun identity member =>
    (valid_of_mem_union validPrimary validSecondary (mem_mergeFiles.mp member).1).2
  have keys := fun {identity : Object} =>
    @mem_keysOf_union runtime primary secondary validPrimary validSecondary identity
  rw [List.nodup_flatMap, and_iff_right own,
    List.pairwise_iff_of_nodup_map nameOf (fun _ _ disjoint => List.disjoint_symm disjoint) distinct]
  constructor
  · intro disjoint left inPrimary right inSecondary different leftKept rightKept key inLeft inRight
    obtain ⟨first, firstMember, firstName⟩ := List.mem_map.mp ((names _).mpr leftKept)
    obtain ⟨second, secondMember, secondName⟩ := List.mem_map.mp ((names _).mpr rightKept)
    have apart : nameOf first ≠ nameOf second := by
      rw [firstName, secondName]
      exact different
    refine @disjoint first firstMember second secondMember apart key ?_ ?_
    · exact (keys (mem_mergeFiles.mp firstMember).1 key).mpr
        ⟨left, List.mem_append_left _ inPrimary, firstName.symm, inLeft⟩
    · exact (keys (mem_mergeFiles.mp secondMember).1 key).mpr
        ⟨right, List.mem_append_right _ inSecondary, secondName.symm, inRight⟩
  · intro disjoint left leftMember right rightMember different key inLeft inRight
    obtain ⟨first, firstMember, firstName, inFirst⟩ :=
      (keys (mem_mergeFiles.mp leftMember).1 key).mp inLeft
    obtain ⟨second, secondMember, secondName, inSecond⟩ :=
      (keys (mem_mergeFiles.mp rightMember).1 key).mp inRight
    have apart : nameOf first ≠ nameOf second := by rw [firstName, secondName]; exact different
    have firstKept : KeptName primary secondary (nameOf first) :=
      firstName ▸ (names _).mp (List.mem_map_of_mem leftMember)
    have secondKept : KeptName primary secondary (nameOf second) :=
      secondName ▸ (names _).mp (List.mem_map_of_mem rightMember)
    -- Two sources on one side are apart because that side is a valid file.
    rcases List.mem_append.mp firstMember with firstPrimary | firstSecondary <;>
    rcases List.mem_append.mp secondMember with secondPrimary | secondSecondary
    · exact validPrimary.keys.2.2 first firstPrimary second secondPrimary apart inFirst inSecond
    · exact disjoint first firstPrimary second secondSecondary apart firstKept secondKept inFirst
        inSecond
    · exact disjoint second secondPrimary first firstSecondary apart.symm secondKept firstKept
        inSecond inFirst
    · exact validSecondary.keys.2.2 first firstSecondary second secondSecondary apart inFirst
        inSecond

/-- The saved union is closed exactly when the namespaces are disjoint and the sides agree on
containers. -/
theorem isClosedUnion_mergeFiles_iff (validPrimary : ValidFile runtime primary)
    (validSecondary : ValidFile runtime secondary) :
    IsClosedUnion runtime primary secondary
      (saveIdentitiesFile runtime (mergeFiles runtime primary secondary)) ↔
      DisjointNamespaces primary secondary ∧ LegacyAgrees primary secondary := by
  have valid : ∀ identity ∈ (mergeFiles runtime primary secondary).identities,
      ValidIdentity runtime identity := fun identity member =>
    (valid_of_mem_union validPrimary validSecondary (mem_mergeFiles.mp member).1).1
  have validOverrides : ∀ overrides,
      (mergeFiles runtime primary secondary).chromeProfileOverrides = some overrides →
      ∀ override ∈ overrides, ValidOverride override := by
    intro overrides given override member
    have merged : override ∈ mergeOverrides primary secondary := by
      simp only [mergeFiles] at given
      split at given
      · cases given
      · exact Option.some.inj given ▸ member
    rw [mergeOverrides, List.mem_eraseDups, List.mem_append] at merged
    rcases merged with inPrimary | inSecondary
    · cases found : primary.chromeProfileOverrides with
      | none => simp [found] at inPrimary
      | some list =>
        rw [found] at inPrimary
        exact validPrimary.overrides list found override inPrimary
    · cases found : secondary.chromeProfileOverrides with
      | none => simp [found] at inSecondary
      | some list =>
        rw [found] at inSecondary
        exact validSecondary.overrides list found override inSecondary
  have accepted := exists_parse_saveIdentitiesFile runtime _ valid validOverrides
  constructor
  · rintro ⟨parsed, parse, names⟩
    rw [names_of_parse_saveIdentitiesFile _ _ _ parse] at names
    exact ⟨(nodup_keys_mergeFiles_iff validPrimary validSecondary names).mp
        (accepted.mp ⟨parsed, parse⟩),
      (names_mergeFiles_iff validPrimary validSecondary).mp names⟩
  · rintro ⟨disjoint, agrees⟩
    have names := (names_mergeFiles_iff validPrimary validSecondary).mpr agrees
    obtain ⟨parsed, parse⟩ := accepted.mpr
      ((nodup_keys_mergeFiles_iff validPrimary validSecondary names).mpr disjoint)
    refine ⟨parsed, parse, ?_⟩
    rw [names_of_parse_saveIdentitiesFile _ _ _ parse]
    exact names

end Union

theorem keptName_comm (first second : IdentitiesFile) (name : String) :
    KeptName first second name ↔ KeptName second first name := by
  simp only [KeptName, List.mem_append, or_comm]

theorem disjointNamespaces_comm (first second : IdentitiesFile) :
    DisjointNamespaces first second ↔ DisjointNamespaces second first := by
  have swap : ∀ first second, DisjointNamespaces first second → DisjointNamespaces second first := by
    intro first second disjoint left inSecond right inFirst different leftKept rightKept
    exact List.disjoint_symm (disjoint right inFirst left inSecond different.symm
      ((keptName_comm _ _ _).mp rightKept) ((keptName_comm _ _ _).mp leftKept))
  exact ⟨swap _ _, swap _ _⟩

/-- For every two accepted registries and either order of their modification times, the file the
merge writes is accepted and has exactly the names to keep if and only if the two namespaces are
disjoint and the sides agree on which identities are legacy containers. -/
theorem mergeRegistryConflict_closed_iff (runtime : Runtime) (live previous : Json)
    (liveFile previousFile : IdentitiesFile) (liveMtime previousMtime : ℚ)
    (acceptedLive : parseIdentitiesFile runtime live = .ok liveFile)
    (acceptedPrevious : parseIdentitiesFile runtime previous = .ok previousFile) :
    ∃ saved, mergeRegistryConflict runtime (some live) (some previous) liveMtime previousMtime =
        .ok (some saved) ∧
      (IsClosedUnion runtime liveFile previousFile saved ↔
        DisjointNamespaces liveFile previousFile ∧
          LegacyAgrees (bySeniority liveFile previousFile liveMtime previousMtime).1
            (bySeniority liveFile previousFile liveMtime previousMtime).2) := by
  have validLive := validFile_of_parse _ _ _ acceptedLive
  have validPrevious := validFile_of_parse _ _ _ acceptedPrevious
  simp only [mergeRegistryConflict, acceptedLive, acceptedPrevious, bind, Except.bind,
    Except.ok.injEq, Option.some.injEq, exists_eq_left']
  unfold bySeniority
  split
  · exact isClosedUnion_mergeFiles_iff validLive validPrevious
  · rw [disjointNamespaces_comm, ← isClosedUnion_mergeFiles_iff validPrevious validLive]
    simp only [IsClosedUnion, keptName_comm liveFile previousFile]

/-! ### Two registries that collide -/

/-- A runtime without a container, whose file system has no links. -/
def plainRuntime : Runtime where
  normalizePath path := path
  dateParse _ := none
  localHome := "/home/user"
  aisHostHome := none

/-- A registry with one identity that has one alias. -/
def registryWithAlias (name other : String) : Json :=
  .obj [("version", .num (.finite 1)), ("identities", .arr [.obj [("name", .str name),
    ("label", .str name), ("configDir", .str ("~/.claude/identities/" ++ name)),
    ("aliases", .arr [.str other])]])]

/-- The identities `work` and `web`, created on two hosts with the same alias `w`, are merged into
a registry that can no longer be loaded. -/
theorem mergeRegistryConflict_alias_collision :
    (∃ work, parseIdentitiesFile plainRuntime (registryWithAlias "work" "w") = .ok work) ∧
      (∃ web, parseIdentitiesFile plainRuntime (registryWithAlias "web" "w") = .ok web) ∧
      ∃ saved, mergeRegistryConflict plainRuntime (some (registryWithAlias "work" "w"))
          (some (registryWithAlias "web" "w")) 1 0 = .ok (some saved) ∧
        parseIdentitiesFile plainRuntime saved = .error "duplicate identity name/alias \"w\"" :=
  ⟨⟨_, rfl⟩, ⟨_, rfl⟩, _, rfl, rfl⟩

/-- With the aliases `w` and `x` the same two registries meet the condition or not exactly as their
merge is closed or not. -/
theorem mergeRegistryConflict_closed_iff_aliases :
    ∃ workFile webFile saved,
      parseIdentitiesFile plainRuntime (registryWithAlias "work" "w") = .ok workFile ∧
      parseIdentitiesFile plainRuntime (registryWithAlias "web" "x") = .ok webFile ∧
      mergeRegistryConflict plainRuntime (some (registryWithAlias "work" "w"))
        (some (registryWithAlias "web" "x")) 1 0 = .ok (some saved) ∧
      (IsClosedUnion plainRuntime workFile webFile saved ↔
        DisjointNamespaces workFile webFile ∧
          LegacyAgrees (bySeniority workFile webFile 1 0).1 (bySeniority workFile webFile 1 0).2) := by
  obtain ⟨saved, written, closed⟩ := mergeRegistryConflict_closed_iff plainRuntime
    (registryWithAlias "work" "w") (registryWithAlias "web" "x") _ _ 1 0 rfl rfl
  exact ⟨_, _, saved, rfl, rfl, written, closed⟩

end AiSwitcher
