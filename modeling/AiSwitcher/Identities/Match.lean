/-
This file models how a working directory picks an identity (`match.ts`): the patterns an identity
has, what they match, and the scan that keeps the best of them. The file system and `node:path`
are parameters.

A scan ends with the owners of the best of the patterns it matched, whatever the order. That is
the answer that was asked for, but for one pattern: `/*` matches the root and nothing below it.
-/

import Mathlib.Data.Int.Order.Basic
import Mathlib.Data.List.Nodup
import Mathlib.Data.List.Perm.Basic
import AiSwitcher.Library.Text

namespace AiSwitcher.Resolution

open JavaScript

/-! ### Identities -/

/-- What a swap pool says of its members. -/
structure SwapPool where
  accounts : List String
  active : Option String
  disallowed : List String
  deriving DecidableEq

/-- What resolving reads of an identity. -/
structure Identity where
  name : String
  configDir : String
  directories : List String
  aliases : List String
  retired : Bool
  retiredAt : Option String
  swapPool : Option SwapPool
  deriving DecidableEq

inductive ResolutionError where
  | unknownIdentity (key : String) (validNames : List String)
  | unknownPool (key : String) (validNames : List String)
  | retiredIdentity (toolName name : String) (retiredAt : Option String)
  | invalidIdentitiesFile (message : String)
  | nonInteractive (message : String)
  | promptTimeout (toolName : String) (seconds : Nat)
  | promptCancelled (toolName : String)
  | other (message : String)
  deriving DecidableEq

/-- The names, or that there are none. -/
def listed (validNames : List String) : String :=
  if validNames = [] then "(none configured yet)" else String.intercalate ", " validNames

def ResolutionError.message : ResolutionError → String
  | .unknownIdentity key validNames =>
      "Unknown identity \"" ++ key ++ "\". Valid identities: " ++ listed validNames
  | .unknownPool key validNames =>
      "Unknown pool \"" ++ key ++ "\". Valid pools: " ++ listed validNames
  | .retiredIdentity toolName name retiredAt =>
      "identity \"" ++ name ++ "\" for " ++ toolName ++ " is retired (since " ++
        retiredAt.getD "an unknown date" ++ ") and cannot be used. Run \"ais identities unretire " ++
        name ++ " --tool=" ++ toolName ++ "\" to restore it."
  | .invalidIdentitiesFile message | .nonInteractive message | .other message => message
  | .promptTimeout toolName seconds =>
      toolName ++ ": no identity selected within " ++ toString seconds ++
        "s — aborting instead of hanging."
  | .promptCancelled toolName => toolName ++ ": identity selection cancelled."

/-! ### Paths -/

/-- The home directory, `resolve` of `node:path`, and `realpathSync` where it does not throw. -/
structure PathRuntime where
  homedir : String
  resolve : List String → String
  realpath : String → Option String

section Paths

variable (runtime : PathRuntime)

def expandTilde (raw : String) : String :=
  if raw = "~" then runtime.homedir
  else if startsWith raw "~/" then runtime.resolve [runtime.homedir, sliceFrom raw 2]
  else raw

def safeRealpath (path : String) : String := (runtime.realpath path).getD path

def stripTrailingSlash (path : String) : String :=
  if 1 < path.toList.length ∧ endsWith path "/" = true then sliceToEnd path 1 else path

def isAbsolute (path : String) : Bool := startsWith path "/"

def expandPath (raw : String) : String :=
  let expanded := expandTilde runtime raw
  if isAbsolute expanded then expanded else runtime.resolve [expanded]

def normalizePath (raw : String) : String :=
  stripTrailingSlash (safeRealpath runtime (expandPath runtime raw))

/-! ### Patterns -/

inductive PatternKind where
  | exact
  | recursive
  deriving DecidableEq

structure ParsedPattern where
  raw : String
  kind : PatternKind
  base : String
  deriving DecidableEq

def parseDirectoryPattern (raw context : String) : Except ResolutionError ParsedPattern :=
  if '*' ∉ raw.toList then .ok ⟨raw, .exact, normalizePath runtime raw⟩
  else if endsWith raw "/*" = true ∧ '*' ∉ raw.toList.dropLast then
    let withoutStar := sliceToEnd raw 2
    .ok ⟨raw, .recursive, normalizePath runtime (if withoutStar = "" then "/" else withoutStar)⟩
  else .error (.invalidIdentitiesFile (context ++ ": directories pattern \"" ++ raw ++
    "\" is invalid — a wildcard is only supported as a " ++
    "whole trailing \"/*\" segment (matches that directory and everything beneath it). " ++
    "Wildcards elsewhere (mid-segment, or without recursive intent) are not supported."))

end Paths

def segmentCount (path : String) : Nat :=
  ((path.toList.splitOn '/').filter (· ≠ [])).length

def scorePattern (pattern : ParsedPattern) : Nat :=
  match pattern.kind with
  | .exact => segmentCount pattern.base * 2 + 1
  | .recursive => segmentCount pattern.base * 2

def patternMatches (normalizedCwd : String) (pattern : ParsedPattern) : Bool :=
  match pattern.kind with
  | .exact => normalizedCwd = pattern.base
  | .recursive => normalizedCwd = pattern.base || startsWith normalizedCwd (pattern.base ++ "/")

/-! ### The scan -/

inductive DirectoryMatch where
  | unique (identity : Identity) (pattern : String)
  | ambiguous (candidates : List Identity)
  deriving DecidableEq

/-- The best score so far, and the identities that have it, each with its pattern. -/
structure BestMatches where
  score : Int
  found : List (Identity × String)

/-- One pattern of the scan; another pattern of an identity that is tied already is no conflict. -/
def BestMatches.consider (best : BestMatches) (normalizedCwd : String) (identity : Identity)
    (raw : String) (parsed : ParsedPattern) : BestMatches :=
  if patternMatches normalizedCwd parsed then
    let score : Int := scorePattern parsed
    if best.score < score then ⟨score, [(identity, raw)]⟩
    else if score = best.score ∧ best.found.all (·.1.name ≠ identity.name) = true then
      { best with found := best.found ++ [(identity, raw)] }
    else best
  else best

def BestMatches.result (best : BestMatches) : Option DirectoryMatch :=
  match best.found with
  | [] => none
  | [(identity, raw)] => some (.unique identity raw)
  | found => some (.ambiguous (found.map (·.1)))

def patternContext (identity : Identity) : String := "identity \"" ++ identity.name ++ "\""

def matchDirectory (runtime : PathRuntime) (cwd : String) (identities : List Identity) :
    Except ResolutionError (Option DirectoryMatch) := do
  let normalizedCwd := normalizePath runtime cwd
  let best ← identities.foldlM (fun best identity =>
    identity.directories.foldlM (fun best raw => do
      let parsed ← parseDirectoryPattern runtime raw (patternContext identity)
      return BestMatches.consider best normalizedCwd identity raw parsed) best) ⟨-1, []⟩
  return best.result

/-! ### What the patterns ask for -/

/-- A directory below another one; the root ends in a separator already. -/
def Below (base dir : String) : Prop :=
  startsWith dir (if base = "/" then "/" else base ++ "/") = true

def Covers (dir : String) (pattern : ParsedPattern) : Prop :=
  dir = pattern.base ∨ pattern.kind = .recursive ∧ Below pattern.base dir

/-- A longer base wins, and of the same length an exact pattern. -/
def MoreSpecific (first second : ParsedPattern) : Prop :=
  segmentCount second.base < segmentCount first.base ∨
    segmentCount second.base = segmentCount first.base ∧
      first.kind = .exact ∧ second.kind = .recursive

/-- A pattern of an identity. -/
structure Entry where
  identity : Identity
  raw : String
  pattern : ParsedPattern
  deriving DecidableEq

/-- The entry is a pattern of one of the identities. -/
def Owned (runtime : PathRuntime) (identities : List Identity) (entry : Entry) : Prop :=
  entry.identity ∈ identities ∧ entry.raw ∈ entry.identity.directories ∧
    parseDirectoryPattern runtime entry.raw (patternContext entry.identity) = .ok entry.pattern

/-- An entry that is taken, and than which none that is taken is more specific. -/
def Best (taken : Entry → Prop) (entry : Entry) : Prop :=
  taken entry ∧ ∀ other, taken other → ¬ MoreSpecific other.pattern entry.pattern

/-- The answer for the entries that are taken: none, the owner of the best ones, or all the owners
where there is more than one. Identities are told apart by name. -/
def Answers (taken : Entry → Prop) : Option DirectoryMatch → Prop
  | none => ∀ entry, ¬ taken entry
  | some (.unique identity raw) =>
      (∃ entry, Best taken entry ∧ entry.identity = identity ∧ entry.raw = raw) ∧
        ∀ entry, Best taken entry → entry.identity.name = identity.name
  | some (.ambiguous candidates) =>
      2 ≤ candidates.length ∧ (candidates.map Identity.name).Nodup ∧
        (∀ candidate ∈ candidates, ∃ entry, Best taken entry ∧ entry.identity = candidate) ∧
        ∀ entry, Best taken entry → entry.identity.name ∈ candidates.map Identity.name

/-! ### Scores -/

theorem scorePattern_lt_iff {first second : ParsedPattern} :
    scorePattern second < scorePattern first ↔ MoreSpecific first second := by
  unfold scorePattern MoreSpecific
  cases first.kind <;> cases second.kind <;> simp <;> omega

theorem startsWith_iff {text start : String} :
    startsWith text start = true ↔ start.toList <+: text.toList :=
  List.isPrefixOf_iff_prefix

theorem covers_of_matches {dir : String} {pattern : ParsedPattern}
    (isMatch : patternMatches dir pattern = true) : Covers dir pattern := by
  unfold patternMatches at isMatch
  cases isKind : pattern.kind with
  | exact =>
    rw [isKind] at isMatch
    exact .inl (of_decide_eq_true isMatch)
  | recursive =>
    rw [isKind] at isMatch
    rcases (Bool.or_eq_true _ _).mp isMatch with same | below
    · exact .inl (of_decide_eq_true same)
    · refine .inr ⟨isKind, ?_⟩
      by_cases root : pattern.base = "/"
      · rw [Below, if_pos root, startsWith_iff]
        rw [startsWith_iff, root, String.toList_append] at below
        exact (List.prefix_append _ _).trans below
      · rwa [Below, if_neg root]

/-- The one kind of pattern that covers a directory without matching it. -/
theorem root_of_covers {dir : String} {pattern : ParsedPattern} (covers : Covers dir pattern)
    (missed : patternMatches dir pattern = false) :
    pattern.kind = .recursive ∧ pattern.base = "/" := by
  unfold patternMatches at missed
  cases isKind : pattern.kind with
  | exact =>
    rw [isKind] at missed
    rcases covers with same | ⟨recursive, -⟩
    · exact absurd same (of_decide_eq_false missed)
    · rw [isKind] at recursive
      cases recursive
  | recursive =>
    rw [isKind] at missed
    obtain ⟨other, notBelow⟩ := (Bool.or_eq_false_iff).mp missed
    rcases covers with same | ⟨-, below⟩
    · exact absurd same (of_decide_eq_false other)
    · refine ⟨rfl, by_contra fun notRoot => ?_⟩
      rw [Below, if_neg notRoot] at below
      exact Bool.noConfusion (notBelow.symm.trans below)

theorem scorePattern_root {pattern : ParsedPattern}
    (isRoot : pattern.kind = .recursive ∧ pattern.base = "/") : scorePattern pattern = 0 := by
  rw [scorePattern, isRoot.1, isRoot.2]
  decide +kernel

/-! ### The scan keeps the best -/

/-- What the scan holds after the entries it has matched so far. -/
structure Tracks (seen : List Entry) (best : BestMatches) : Prop where
  start : seen = [] → best = ⟨-1, []⟩
  some : seen ≠ [] → best.found ≠ []
  top : ∀ entry ∈ seen, (scorePattern entry.pattern : Int) ≤ best.score
  owned : ∀ found ∈ best.found, ∃ entry ∈ seen, found = (entry.identity, entry.raw) ∧
    (scorePattern entry.pattern : Int) = best.score
  named : ∀ entry ∈ seen, (scorePattern entry.pattern : Int) = best.score →
    entry.identity.name ∈ best.found.map (·.1.name)
  apart : (best.found.map (·.1.name)).Nodup

theorem Tracks.consider {seen : List Entry} {best : BestMatches} (tracks : Tracks seen best)
    {dir : String} {entry : Entry} (isMatch : patternMatches dir entry.pattern = true) :
    Tracks (seen ++ [entry]) (best.consider dir entry.identity entry.raw entry.pattern) := by
  have everyone {property : Entry → Prop} (before : ∀ other ∈ seen, property other)
      (this : property entry) : ∀ other ∈ seen ++ [entry], property other := by
    intro other member
    rcases List.mem_append.mp member with old | new
    · exact before other old
    · exact List.mem_singleton.mp new ▸ this
  have last : entry ∈ seen ++ [entry] := List.mem_append_right _ (List.mem_singleton_self _)
  rw [BestMatches.consider, if_pos isMatch]
  extract_lets score
  split_ifs with better tied
  · refine ⟨fun none => by simp at none, fun _ => List.cons_ne_nil _ _,
      everyone (fun other old => ((tracks.top other old).trans_lt better).le) le_rfl, ?_,
      everyone (fun other old same => ?_) fun _ => List.mem_singleton_self _,
      List.nodup_singleton _⟩
    · intro found member
      exact ⟨entry, last, List.mem_singleton.mp member, rfl⟩
    · exact absurd same ((tracks.top other old).trans_lt better).ne
  · obtain ⟨same, fresh⟩ := tied
    have isNew : ∀ found ∈ best.found, found.1.name ≠ entry.identity.name := fun found member =>
      of_decide_eq_true (List.all_eq_true.mp fresh found member)
    refine ⟨fun none => by simp at none, fun _ => by simp, everyone tracks.top same.le, ?_,
      everyone (fun other old same => ?_) fun _ => by simp, ?_⟩
    · intro found member
      rcases List.mem_append.mp member with old | new
      · obtain ⟨owner, isOwner, facts⟩ := tracks.owned found old
        exact ⟨owner, List.mem_append_left _ isOwner, facts⟩
      · exact ⟨entry, last, List.mem_singleton.mp new, same⟩
    · rw [List.map_append]
      exact List.mem_append_left _ (tracks.named other old same)
    · rw [List.map_append, List.map_singleton, List.nodup_append]
      refine ⟨tracks.apart, List.nodup_singleton _, ?_⟩
      intro name member other isOther
      obtain ⟨found, isFound, rfl⟩ := List.mem_map.mp member
      rw [List.mem_singleton.mp isOther]
      exact isNew found isFound
  · have lower : score ≤ best.score := not_lt.mp better
    have isFound : best.found ≠ [] := by
      intro none
      by_cases seenNone : seen = []
      · rw [tracks.start seenNone] at lower
        exact absurd lower (by simp only [score]; omega)
      · exact tracks.some seenNone none
    refine ⟨fun none => by simp at none, fun _ => isFound, everyone tracks.top lower, ?_,
      everyone tracks.named fun same => ?_, tracks.apart⟩
    · intro found member
      obtain ⟨owner, isOwner, facts⟩ := tracks.owned found member
      exact ⟨owner, List.mem_append_left _ isOwner, facts⟩
    · have known : ¬ best.found.all (·.1.name ≠ entry.identity.name) = true :=
        fun fresh => tied ⟨same, fresh⟩
      obtain ⟨found, isFound, equal⟩ := List.all_eq_false.mp (Bool.eq_false_iff.mpr known)
      exact List.mem_map.mpr ⟨found, isFound, by simpa using equal⟩

theorem Tracks.foldl (dir : String) (entries : List Entry) {seen : List Entry}
    {best : BestMatches} (tracks : Tracks seen best) :
    Tracks (seen ++ entries.filter fun entry => patternMatches dir entry.pattern)
      (entries.foldl (fun best entry =>
        best.consider dir entry.identity entry.raw entry.pattern) best) := by
  induction entries generalizing seen best with
  | nil => simpa using tracks
  | cons entry entries inductionHypothesis =>
    rw [List.foldl_cons]
    by_cases isMatch : patternMatches dir entry.pattern = true
    · simpa [isMatch] using inductionHypothesis (tracks.consider isMatch)
    · rw [BestMatches.consider, if_neg isMatch]
      simpa [isMatch] using inductionHypothesis tracks

theorem tracks_start : Tracks [] ⟨-1, []⟩ :=
  ⟨fun _ => rfl, fun none => absurd rfl none, nofun, nofun, nofun, List.nodup_nil⟩

/-- The best of what was seen is what has the score. -/
theorem Tracks.best_iff {seen : List Entry} {best : BestMatches} (tracks : Tracks seen best)
    (entry : Entry) : Best (· ∈ seen) entry ↔
      entry ∈ seen ∧ (scorePattern entry.pattern : Int) = best.score := by
  constructor
  · rintro ⟨member, isBest⟩
    obtain ⟨found, isFound⟩ := List.exists_mem_of_ne_nil _
      (tracks.some (List.ne_nil_of_mem member))
    obtain ⟨owner, isOwner, -, isTop⟩ := tracks.owned found isFound
    have notLess := mt scorePattern_lt_iff.mp (isBest owner isOwner)
    refine ⟨member, le_antisymm (tracks.top entry member) ?_⟩
    rw [← isTop]
    exact_mod_cast not_lt.mp notLess
  · rintro ⟨member, isTop⟩
    refine ⟨member, fun other isOther specific => ?_⟩
    have less := scorePattern_lt_iff.mpr specific
    have most := tracks.top other isOther
    omega

theorem Tracks.answers {seen : List Entry} {best : BestMatches} (tracks : Tracks seen best) :
    Answers (· ∈ seen) best.result := by
  have owner : ∀ found ∈ best.found, ∃ entry, Best (· ∈ seen) entry ∧
      found = (entry.identity, entry.raw) := by
    intro found member
    obtain ⟨entry, isSeen, same, isTop⟩ := tracks.owned found member
    exact ⟨entry, (tracks.best_iff entry).mpr ⟨isSeen, isTop⟩, same⟩
  have named : ∀ entry, Best (· ∈ seen) entry →
      entry.identity.name ∈ best.found.map (·.1.name) := fun entry isBest =>
    tracks.named entry isBest.1 ((tracks.best_iff entry).mp isBest).2
  have apart := tracks.apart
  unfold BestMatches.result
  split
  next none => exact fun entry member => tracks.some (List.ne_nil_of_mem member) none
  next identity raw one =>
    rw [one] at owner named
    obtain ⟨entry, isBest, same⟩ := owner _ (List.mem_singleton_self _)
    obtain ⟨isIdentity, isRaw⟩ := Prod.mk.inj same
    exact ⟨⟨entry, isBest, isIdentity.symm, isRaw.symm⟩, fun other isOther =>
      List.mem_singleton.mp (named other isOther)⟩
  next found notNone notOne =>
    refine ⟨?_, by rwa [List.map_map], ?_, fun entry isBest => by
      rw [List.map_map]; exact named entry isBest⟩
    · rw [List.length_map]
      rcases isFound : best.found with _ | ⟨one, _ | ⟨two, more⟩⟩
      · exact absurd isFound notNone
      · exact absurd isFound (notOne one.1 one.2)
      · simp
    · intro candidate member
      obtain ⟨found, isFound, rfl⟩ := List.mem_map.mp member
      obtain ⟨entry, isBest, same⟩ := owner found isFound
      exact ⟨entry, isBest, by rw [same]⟩

/-! ### The patterns of all identities -/

section Entries

variable (runtime : PathRuntime)

def entryOf (identity : Identity) (raw : String) : Except ResolutionError Entry :=
  (parseDirectoryPattern runtime raw (patternContext identity)).map fun parsed =>
    ⟨identity, raw, parsed⟩

def entriesOf (identities : List Identity) : Except ResolutionError (List Entry) :=
  (identities.mapM fun identity : Identity =>
    identity.directories.mapM (entryOf runtime identity)).map List.flatten

def considerAll (dir : String) (best : BestMatches) (entries : List Entry) : BestMatches :=
  entries.foldl (fun best entry =>
    best.consider dir entry.identity entry.raw entry.pattern) best

variable {runtime}

theorem foldlM_directories (dir : String) (identity : Identity) (raws : List String)
    (best : BestMatches) :
    raws.foldlM (fun best raw => do
      let parsed ← parseDirectoryPattern runtime raw (patternContext identity)
      return BestMatches.consider best dir identity raw parsed) best =
      (raws.mapM (entryOf runtime identity)).map (considerAll dir best) := by
  induction raws generalizing best with
  | nil => rfl
  | cons raw raws inductionHypothesis =>
    rw [List.foldlM_cons, List.mapM_cons, entryOf]
    cases parseDirectoryPattern runtime raw (patternContext identity) with
    | error error => rfl
    | ok parsed =>
      refine (inductionHypothesis _).trans ?_
      cases isEntries : raws.mapM (entryOf runtime identity) with
      | error error => simp [Except.map, bind, Except.bind]
      | ok entries => simp [Except.map, bind, Except.bind, considerAll, pure, Except.pure]

theorem foldlM_identities (dir : String) (identities : List Identity) (best : BestMatches) :
    identities.foldlM (fun best identity =>
      identity.directories.foldlM (fun best raw => do
        let parsed ← parseDirectoryPattern runtime raw (patternContext identity)
        return BestMatches.consider best dir identity raw parsed) best) best =
      (entriesOf runtime identities).map (considerAll dir best) := by
  induction identities generalizing best with
  | nil => rfl
  | cons identity identities inductionHypothesis =>
    rw [List.foldlM_cons, foldlM_directories, entriesOf, List.mapM_cons]
    cases identity.directories.mapM (entryOf runtime identity) with
    | error error => rfl
    | ok entries =>
      refine (inductionHypothesis _).trans ?_
      rw [entriesOf]
      cases isRest : identities.mapM
          fun identity : Identity => identity.directories.mapM (entryOf runtime identity) with
      | error error => simp [Except.map, bind, Except.bind]
      | ok rest => simp [Except.map, bind, Except.bind, considerAll, pure, Except.pure]

theorem matchDirectory_eq (cwd : String) (identities : List Identity) :
    matchDirectory runtime cwd identities = (entriesOf runtime identities).map fun entries =>
      (considerAll (normalizePath runtime cwd) ⟨-1, []⟩ entries).result := by
  rw [matchDirectory, foldlM_identities]
  cases entriesOf runtime identities <;> rfl

/-- The identities have a pattern that is none. -/
def Invalid (runtime : PathRuntime) (identities : List Identity) : Prop :=
  ∃ identity ∈ identities, ∃ raw ∈ identity.directories, ∃ error,
    parseDirectoryPattern runtime raw (patternContext identity) = .error error

theorem mapM_entryOf (runtime : PathRuntime) (identity : Identity) (raws : List String) :
    (∃ raw ∈ raws, ∃ error, parseDirectoryPattern runtime raw (patternContext identity) =
        .error error) ∧ (∃ error, raws.mapM (entryOf runtime identity) = .error error) ∨
      ∃ entries, raws.mapM (entryOf runtime identity) = .ok entries ∧
        (∀ raw ∈ raws, ∃ parsed, parseDirectoryPattern runtime raw (patternContext identity) =
          .ok parsed) ∧
        ∀ entry, entry ∈ entries ↔ entry.identity = identity ∧ entry.raw ∈ raws ∧
          parseDirectoryPattern runtime entry.raw (patternContext identity) =
            .ok entry.pattern := by
  induction raws with
  | nil => exact .inr ⟨[], rfl, nofun, by simp⟩
  | cons raw raws inductionHypothesis =>
    rw [List.mapM_cons, entryOf]
    cases isParsed : parseDirectoryPattern runtime raw (patternContext identity) with
    | error error => exact .inl ⟨⟨raw, List.mem_cons_self, error, isParsed⟩, error, rfl⟩
    | ok parsed =>
      rcases inductionHypothesis with ⟨⟨other, member, invalid⟩, error, isError⟩ |
          ⟨entries, isEntries, valid, member⟩
      · refine .inl ⟨⟨other, List.mem_cons_of_mem _ member, invalid⟩, error, ?_⟩
        simp [Except.map, bind, Except.bind, isError]
      · refine .inr ⟨⟨identity, raw, parsed⟩ :: entries, ?_,
          List.forall_mem_cons.mpr ⟨⟨parsed, isParsed⟩, valid⟩, fun entry => ?_⟩
        · simp [Except.map, bind, Except.bind, isEntries, pure, Except.pure]
        · rw [List.mem_cons, member, List.mem_cons]
          constructor
          · rintro (rfl | ⟨rfl, isRaw, parses⟩)
            · exact ⟨rfl, .inl rfl, isParsed⟩
            · exact ⟨rfl, .inr isRaw, parses⟩
          · rintro ⟨rfl, rfl | isRaw, parses⟩
            · obtain rfl := Except.ok.inj (isParsed.symm.trans parses)
              exact .inl rfl
            · exact .inr ⟨rfl, isRaw, parses⟩

theorem entriesOf_spec (runtime : PathRuntime) (identities : List Identity) :
    Invalid runtime identities ∧ (∃ error, entriesOf runtime identities = .error error) ∨
      ∃ entries, entriesOf runtime identities = .ok entries ∧ ¬ Invalid runtime identities ∧
        ∀ entry, entry ∈ entries ↔ Owned runtime identities entry := by
  induction identities with
  | nil => exact .inr ⟨[], rfl, by simp [Invalid], by simp [Owned]⟩
  | cons identity identities inductionHypothesis =>
    rw [entriesOf, List.mapM_cons]
    rcases mapM_entryOf runtime identity identity.directories with
      ⟨⟨raw, isRaw, invalid⟩, error, isError⟩ | ⟨entries, isEntries, valid, member⟩
    · refine .inl ⟨⟨identity, List.mem_cons_self, raw, isRaw, invalid⟩, error, ?_⟩
      rw [isError]
      rfl
    · rw [isEntries]
      rw [entriesOf] at inductionHypothesis
      rcases inductionHypothesis with ⟨⟨other, isOther, invalid⟩, error, isError⟩ |
          ⟨rest, isRest, restValid, owned⟩
      · refine .inl ⟨⟨other, List.mem_cons_of_mem _ isOther, invalid⟩, error, ?_⟩
        obtain ⟨fault, isFault⟩ : ∃ fault, identities.mapM (fun identity : Identity =>
            identity.directories.mapM (entryOf runtime identity)) = .error fault := by
          cases all : identities.mapM
              fun identity : Identity => identity.directories.mapM (entryOf runtime identity) with
          | error fault => exact ⟨fault, rfl⟩
          | ok rest => rw [all] at isError; cases isError
        rw [isFault] at isError ⊢
        exact isError
      · obtain ⟨lists, isLists, rfl⟩ : ∃ lists, identities.mapM (fun identity : Identity =>
            identity.directories.mapM (entryOf runtime identity)) = .ok lists ∧
              lists.flatten = rest := by
          cases all : identities.mapM
              fun identity : Identity => identity.directories.mapM (entryOf runtime identity) with
          | error fault => rw [all] at isRest; cases isRest
          | ok lists => rw [all] at isRest; exact ⟨lists, rfl, Except.ok.inj isRest⟩
        rw [isLists]
        refine .inr ⟨entries ++ lists.flatten, rfl, ?_, fun entry => ?_⟩
        · rintro ⟨other, isOther, raw, isRaw, error, invalid⟩
          rcases List.mem_cons.mp isOther with rfl | isOther
          · obtain ⟨parsed, parses⟩ := valid raw isRaw
            rw [parses] at invalid
            cases invalid
          · exact restValid ⟨other, isOther, raw, isRaw, error, invalid⟩
        rw [List.mem_append, member, owned]
        constructor
        · rintro (⟨rfl, isRaw, parses⟩ | ⟨isIdentity, more⟩)
          · exact ⟨List.mem_cons_self, isRaw, parses⟩
          · exact ⟨List.mem_cons_of_mem _ isIdentity, more⟩
        · rintro ⟨isIdentity, isRaw, parses⟩
          rcases List.mem_cons.mp isIdentity with rfl | isIdentity
          · exact .inl ⟨rfl, isRaw, parses⟩
          · exact .inr ⟨isIdentity, isRaw, parses⟩

end Entries

/-! ### The answer -/

variable {runtime : PathRuntime} {cwd : String} {identities : List Identity}

/-- The entry is a pattern of one of the identities that matches the directory. -/
def Matching (runtime : PathRuntime) (cwd : String) (identities : List Identity)
    (entry : Entry) : Prop :=
  Owned runtime identities entry ∧
    patternMatches (normalizePath runtime cwd) entry.pattern = true

/-- The entry is a pattern of one of the identities that covers the directory. -/
def Covering (runtime : PathRuntime) (cwd : String) (identities : List Identity)
    (entry : Entry) : Prop :=
  Owned runtime identities entry ∧ Covers (normalizePath runtime cwd) entry.pattern

theorem matchDirectory_cases (runtime : PathRuntime) (cwd : String) (identities : List Identity) :
    (Invalid runtime identities ∧ ∃ error, matchDirectory runtime cwd identities = .error error) ∨
      ¬ Invalid runtime identities ∧ ∃ result,
        matchDirectory runtime cwd identities = .ok result ∧
          Answers (Matching runtime cwd identities) result := by
  rw [matchDirectory_eq]
  rcases entriesOf_spec runtime identities with
    ⟨invalid, error, isError⟩ | ⟨entries, isEntries, valid, owned⟩
  · exact .inl ⟨invalid, error, by rw [isError]; rfl⟩
  · refine .inr ⟨valid, _, by rw [isEntries]; rfl, ?_⟩
    have answers := (tracks_start.foldl (normalizePath runtime cwd) entries).answers
    have same : (· ∈ [] ++ entries.filter fun entry =>
        patternMatches (normalizePath runtime cwd) entry.pattern) =
        Matching runtime cwd identities := by
      funext entry
      rw [List.nil_append, List.mem_filter, owned]
      rfl
    rwa [same] at answers

/-! ### Order -/

/-- The same identities and patterns in another order. -/
def Reordered (before after : List Identity) : Prop :=
  ∃ middle, before.Perm middle ∧ List.Forall₂ (fun first second : Identity =>
    second = { first with directories := second.directories } ∧
      first.directories.Perm second.directories) middle after

/-- The same answer up to the order of the candidates and the pattern that is named; identities
are told apart by name. -/
def SameAnswer : Except ResolutionError (Option DirectoryMatch) →
    Except ResolutionError (Option DirectoryMatch) → Prop
  | .error _, .error _ => True
  | .ok none, .ok none => True
  | .ok (some (.unique first _)), .ok (some (.unique second _)) => first.name = second.name
  | .ok (some (.ambiguous first)), .ok (some (.ambiguous second)) =>
      (first.map Identity.name).Perm (second.map Identity.name)
  | _, _ => False

/-- Every identity has its patterns under its name there too. -/
def Carried (before after : List Identity) : Prop :=
  ∀ identity ∈ before, ∃ other ∈ after, other.name = identity.name ∧
    ∀ raw ∈ identity.directories, raw ∈ other.directories

theorem Reordered.carried {before after : List Identity} (reordered : Reordered before after) :
    Carried before after ∧ Carried after before := by
  obtain ⟨middle, perm, related⟩ := reordered
  have both : Carried middle after ∧ Carried after middle := by
    clear perm
    induction related with
    | nil => exact ⟨nofun, nofun⟩
    | @cons first second _ _ same _ inductionHypothesis =>
      have sameName : second.name = first.name := by rw [same.1]
      refine ⟨List.forall_mem_cons.mpr ⟨?_, fun identity member => ?_⟩,
        List.forall_mem_cons.mpr ⟨?_, fun identity member => ?_⟩⟩
      · exact ⟨second, List.mem_cons_self, sameName, fun _ => (same.2.mem_iff).mp⟩
      · obtain ⟨other, isOther, facts⟩ := inductionHypothesis.1 identity member
        exact ⟨other, List.mem_cons_of_mem _ isOther, facts⟩
      · exact ⟨first, List.mem_cons_self, sameName.symm, fun _ => (same.2.mem_iff).mpr⟩
      · obtain ⟨other, isOther, facts⟩ := inductionHypothesis.2 identity member
        exact ⟨other, List.mem_cons_of_mem _ isOther, facts⟩
  refine ⟨fun identity member => both.1 identity (perm.subset member), fun identity member => ?_⟩
  obtain ⟨other, isOther, facts⟩ := both.2 identity member
  exact ⟨other, perm.mem_iff.mpr isOther, facts⟩

theorem Carried.invalid {before after : List Identity} (carried : Carried before after)
    (invalid : Invalid runtime before) : Invalid runtime after := by
  obtain ⟨identity, isIdentity, raw, isRaw, error, isError⟩ := invalid
  obtain ⟨other, isOther, sameName, raws⟩ := carried identity isIdentity
  exact ⟨other, isOther, raw, raws raw isRaw, error, by rwa [patternContext, sameName]⟩

/-- What is taken there is taken here, for an identity of the same name. -/
def Mirrors (taken other : Entry → Prop) : Prop :=
  ∀ entry, taken entry → ∃ mirrored, other mirrored ∧
    mirrored.identity.name = entry.identity.name ∧ mirrored.pattern = entry.pattern

theorem Carried.mirrors {before after : List Identity} (carried : Carried before after) :
    Mirrors (Matching runtime cwd before) (Matching runtime cwd after) := by
  rintro entry ⟨⟨isIdentity, isRaw, parses⟩, isMatch⟩
  obtain ⟨other, isOther, sameName, raws⟩ := carried entry.identity isIdentity
  refine ⟨⟨other, entry.raw, entry.pattern⟩, ⟨⟨isOther, raws _ isRaw, ?_⟩, isMatch⟩, sameName,
    rfl⟩
  rw [patternContext, sameName]
  exact parses

theorem Mirrors.best {taken other : Entry → Prop} (there : Mirrors taken other)
    (back : Mirrors other taken) : Mirrors (Best taken) (Best other) := by
  rintro entry ⟨isTaken, isBest⟩
  obtain ⟨mirrored, isMirrored, sameName, samePattern⟩ := there entry isTaken
  refine ⟨mirrored, ⟨isMirrored, fun rival isRival specific => ?_⟩, sameName, samePattern⟩
  obtain ⟨original, isOriginal, -, same⟩ := back rival isRival
  exact isBest original isOriginal (by rwa [same, ← samePattern])

/-- The names of the answer are the names of the owners of the best. -/
theorem mem_names_iff {taken : Entry → Prop} {candidates : List Identity}
    (answers : Answers taken (some (.ambiguous candidates))) (name : String) :
    name ∈ candidates.map Identity.name ↔ ∃ entry, Best taken entry ∧ entry.identity.name = name := by
  constructor
  · intro member
    obtain ⟨candidate, isCandidate, rfl⟩ := List.mem_map.mp member
    obtain ⟨entry, isBest, rfl⟩ := answers.2.2.1 candidate isCandidate
    exact ⟨entry, isBest, rfl⟩
  · rintro ⟨entry, isBest, rfl⟩
    exact answers.2.2.2 entry isBest

/-- Several candidates are not the one name. -/
theorem Answers.not_one {taken : Entry → Prop} {candidates : List Identity}
    (answers : Answers taken (some (.ambiguous candidates))) {name : String}
    (one : ∀ entry, Best taken entry → entry.identity.name = name) : False := by
  have apart := answers.2.1
  have all : ∀ other ∈ candidates.map Identity.name, other = name := fun other member => by
    obtain ⟨entry, isBest, rfl⟩ := (mem_names_iff answers other).mp member
    exact one entry isBest
  have several : 2 ≤ (candidates.map Identity.name).length := by simpa using answers.1
  obtain ⟨count, isReplicate⟩ : ∃ count, candidates.map Identity.name = List.replicate count name :=
    ⟨_, List.eq_replicate_of_mem all⟩
  rw [isReplicate, List.length_replicate] at several
  rw [isReplicate, List.nodup_replicate] at apart
  omega

theorem Answers.exists_best {taken : Entry → Prop} {found : DirectoryMatch}
    (answers : Answers taken (some found)) : ∃ entry, Best taken entry := by
  cases found with
  | unique identity raw => exact ⟨_, answers.1.choose_spec.1⟩
  | ambiguous candidates =>
    obtain ⟨candidate, member⟩ := List.exists_mem_of_length_pos
      (Nat.zero_lt_two.trans_le answers.1)
    exact ⟨_, (answers.2.2.1 candidate member).choose_spec.1⟩

theorem sameAnswer_of_answers {first second : Entry → Prop} {result other : Option DirectoryMatch}
    (there : Mirrors first second) (back : Mirrors second first)
    (answers : Answers first result) (otherAnswers : Answers second other) :
    SameAnswer (.ok result) (.ok other) := by
  have bestThere := there.best back
  have bestBack := back.best there
  have one {taken others : Entry → Prop} (mirrors : Mirrors (Best others) (Best taken))
      {name : String} (all : ∀ entry, Best taken entry → entry.identity.name = name) :
      ∀ entry, Best others entry → entry.identity.name = name := by
    intro entry isBest
    obtain ⟨mirrored, isMirrored, sameName, -⟩ := mirrors entry isBest
    exact sameName ▸ all mirrored isMirrored
  rcases result with _ | ⟨identity, raw⟩ | candidates
  · cases other with
    | none => trivial
    | some found =>
      obtain ⟨entry, isBest⟩ := otherAnswers.exists_best
      obtain ⟨mirrored, isMirrored, -⟩ := back entry isBest.1
      exact absurd isMirrored (answers mirrored)
  · rcases other with _ | ⟨owner, pattern⟩ | others
    · obtain ⟨entry, isBest⟩ := answers.exists_best
      obtain ⟨mirrored, isMirrored, -⟩ := there entry isBest.1
      exact absurd isMirrored (otherAnswers mirrored)
    · obtain ⟨entry, isBest, rfl, -⟩ := answers.1
      obtain ⟨mirrored, isMirrored, sameName, -⟩ := bestThere entry isBest
      exact sameName.symm.trans (otherAnswers.2 mirrored isMirrored)
    · exact (otherAnswers.not_one (one bestBack answers.2)).elim
  · rcases other with _ | ⟨owner, pattern⟩ | others
    · obtain ⟨entry, isBest⟩ := answers.exists_best
      obtain ⟨mirrored, isMirrored, -⟩ := there entry isBest.1
      exact absurd isMirrored (otherAnswers mirrored)
    · exact (answers.not_one (one bestThere otherAnswers.2)).elim
    · refine (List.perm_ext_iff_of_nodup answers.2.1 otherAnswers.2.1).mpr fun name => ?_
      rw [mem_names_iff answers, mem_names_iff otherAnswers]
      constructor
      · rintro ⟨entry, isBest, rfl⟩
        obtain ⟨mirrored, isMirrored, sameName, -⟩ := bestThere entry isBest
        exact ⟨mirrored, isMirrored, sameName⟩
      · rintro ⟨entry, isBest, rfl⟩
        obtain ⟨mirrored, isMirrored, sameName, -⟩ := bestBack entry isBest
        exact ⟨mirrored, isMirrored, sameName⟩

theorem matchDirectory_reordered {before after : List Identity}
    (reordered : Reordered before after) :
    SameAnswer (matchDirectory runtime cwd before) (matchDirectory runtime cwd after) := by
  obtain ⟨there, back⟩ := reordered.carried
  rcases matchDirectory_cases runtime cwd before with
    ⟨invalid, error, isError⟩ | ⟨valid, result, isResult, answers⟩
  · rcases matchDirectory_cases runtime cwd after with ⟨-, other, isOther⟩ | ⟨valid, -⟩
    · rw [isError, isOther]
      trivial
    · exact absurd (there.invalid invalid) valid
  · rcases matchDirectory_cases runtime cwd after with ⟨invalid, -⟩ | ⟨-, other, isOther, others⟩
    · exact absurd (back.invalid invalid) valid
    · rw [isResult, isOther]
      exact sameAnswer_of_answers there.mirrors back.mirrors answers others

/-! ### The best pattern that covers the directory -/

/-- The answer is that of the patterns that cover the directory, in any order; only a pattern that
is none makes the scan fail. -/
structure Matched (runtime : PathRuntime) (cwd : String) (identities : List Identity) : Prop where
  best : ∀ result, matchDirectory runtime cwd identities = .ok result →
    Answers (Covering runtime cwd identities) result
  fails : ∀ error, matchDirectory runtime cwd identities = .error error →
    Invalid runtime identities
  stable : ∀ others, Reordered identities others →
    SameAnswer (matchDirectory runtime cwd identities) (matchDirectory runtime cwd others)

/-- Below the root, no identity is left to the pattern `/*`: something more specific matches, or
a pattern of the same identity does. -/
def RootSettled (runtime : PathRuntime) (cwd : String) (identities : List Identity) : Prop :=
  ¬ Invalid runtime identities → ∀ entry, Owned runtime identities entry →
    entry.pattern.kind = .recursive → entry.pattern.base = "/" →
      Below "/" (normalizePath runtime cwd) → normalizePath runtime cwd ≠ "/" →
        startsWith (normalizePath runtime cwd) "//" = false →
          ∃ other, Matching runtime cwd identities other ∧
            (MoreSpecific other.pattern entry.pattern ∨
              other.identity.name = entry.identity.name)

theorem not_moreSpecific_iff {first second : ParsedPattern} :
    ¬ MoreSpecific first second ↔ scorePattern first ≤ scorePattern second := by
  rw [← scorePattern_lt_iff, not_lt]

/-- What covers the directory and is not matched is the pattern `/*` below the root. -/
theorem missed_cases {entry : Entry} (covering : Covering runtime cwd identities entry)
    (missed : ¬ Matching runtime cwd identities entry) :
    entry.pattern.kind = .recursive ∧ entry.pattern.base = "/" ∧
      Below "/" (normalizePath runtime cwd) ∧ normalizePath runtime cwd ≠ "/" ∧
        startsWith (normalizePath runtime cwd) "//" = false := by
  have notMatched : patternMatches (normalizePath runtime cwd) entry.pattern = false :=
    Bool.eq_false_iff.mpr fun isMatch => missed ⟨covering.1, isMatch⟩
  obtain ⟨isKind, isBase⟩ := root_of_covers covering.2 notMatched
  rw [patternMatches, isKind, isBase] at notMatched
  obtain ⟨notRoot, notBelow⟩ := Bool.or_eq_false_iff.mp notMatched
  refine ⟨isKind, isBase, ?_, of_decide_eq_false notRoot, notBelow⟩
  rcases covering.2 with same | ⟨-, below⟩
  · exact absurd (same.trans isBase) (of_decide_eq_false notRoot)
  · exact isBase ▸ below

theorem covering_of_matching {entry : Entry} (matching : Matching runtime cwd identities entry) :
    Covering runtime cwd identities entry :=
  ⟨matching.1, covers_of_matches matching.2⟩

/-- What is matched best covers best: nothing is less specific than the pattern of the root. -/
theorem best_covering_of_matching {entry : Entry}
    (isBest : Best (Matching runtime cwd identities) entry) :
    Best (Covering runtime cwd identities) entry := by
  refine ⟨covering_of_matching isBest.1, fun other covering => ?_⟩
  by_cases isMatch : Matching runtime cwd identities other
  · exact isBest.2 other isMatch
  · obtain ⟨isKind, isBase, -⟩ := missed_cases covering isMatch
    rw [not_moreSpecific_iff, scorePattern_root ⟨isKind, isBase⟩]
    exact Nat.zero_le _

theorem best_matching_of_covering (valid : ¬ Invalid runtime identities)
    (settled : RootSettled runtime cwd identities) {entry : Entry}
    (isBest : Best (Covering runtime cwd identities) entry) :
    ∃ other, Best (Matching runtime cwd identities) other ∧
      other.identity.name = entry.identity.name := by
  by_cases isMatch : Matching runtime cwd identities entry
  · exact ⟨entry, ⟨isMatch, fun other matching => isBest.2 other (covering_of_matching matching)⟩,
      rfl⟩
  · obtain ⟨isKind, isBase, below, notRoot, notBelow⟩ := missed_cases isBest.1 isMatch
    obtain ⟨other, matching, specific | sameName⟩ :=
      settled valid entry isBest.1.1 isKind isBase below notRoot notBelow
    · exact absurd specific (isBest.2 other (covering_of_matching matching))
    · refine ⟨other, ⟨matching, fun rival isRival => ?_⟩, sameName⟩
      have lowest := isBest.2 rival (covering_of_matching isRival)
      rw [not_moreSpecific_iff, scorePattern_root ⟨isKind, isBase⟩] at lowest
      rw [not_moreSpecific_iff]
      exact lowest.trans (Nat.zero_le _)

theorem answers_covering (valid : ¬ Invalid runtime identities)
    (settled : RootSettled runtime cwd identities) {result : Option DirectoryMatch}
    (answers : Answers (Matching runtime cwd identities) result) :
    Answers (Covering runtime cwd identities) result := by
  rcases result with _ | ⟨identity, raw⟩ | candidates
  · intro entry covering
    by_cases isMatch : Matching runtime cwd identities entry
    · exact answers entry isMatch
    · obtain ⟨isKind, isBase, below, notRoot, notBelow⟩ := missed_cases covering isMatch
      obtain ⟨other, matching, -⟩ :=
        settled valid entry covering.1 isKind isBase below notRoot notBelow
      exact answers other matching
  · obtain ⟨⟨entry, isBest, facts⟩, all⟩ := answers
    refine ⟨⟨entry, best_covering_of_matching isBest, facts⟩, fun other isOther => ?_⟩
    obtain ⟨matched, isMatched, sameName⟩ := best_matching_of_covering valid settled isOther
    exact sameName ▸ all matched isMatched
  · refine ⟨answers.1, answers.2.1, fun candidate member => ?_, fun other isOther => ?_⟩
    · obtain ⟨entry, isBest, facts⟩ := answers.2.2.1 candidate member
      exact ⟨entry, best_covering_of_matching isBest, facts⟩
    · obtain ⟨matched, isMatched, sameName⟩ := best_matching_of_covering valid settled isOther
      exact sameName ▸ answers.2.2.2 matched isMatched

/-- Where the pattern of the root would have to decide, the answer is another one. -/
theorem rootSettled_of_answers {result : Option DirectoryMatch}
    (answers : Answers (Matching runtime cwd identities) result)
    (wanted : Answers (Covering runtime cwd identities) result) {entry : Entry}
    (covering : Covering runtime cwd identities entry)
    (isRoot : entry.pattern.kind = .recursive ∧ entry.pattern.base = "/") :
    ∃ other, Matching runtime cwd identities other ∧
      (MoreSpecific other.pattern entry.pattern ∨
        other.identity.name = entry.identity.name) := by
  cases result with
  | none => exact absurd covering (wanted entry)
  | some found =>
    obtain ⟨first, isFirst⟩ := answers.exists_best
    by_cases specific : MoreSpecific first.pattern entry.pattern
    · exact ⟨first, isFirst.1, .inl specific⟩
    · rw [not_moreSpecific_iff, scorePattern_root isRoot] at specific
      have isBest : Best (Covering runtime cwd identities) entry := by
        refine ⟨covering, fun other isOther => ?_⟩
        have lowest := (best_covering_of_matching isFirst).2 other isOther
        rw [not_moreSpecific_iff] at lowest ⊢
        exact (lowest.trans specific).trans (Nat.zero_le _)
      cases found with
      | unique identity raw =>
        obtain ⟨⟨matched, isMatched, rfl, -⟩, -⟩ := answers
        exact ⟨matched, isMatched.1, .inr (wanted.2 entry isBest).symm⟩
      | ambiguous candidates =>
        obtain ⟨matched, isMatched, sameName⟩ :=
          (mem_names_iff answers _).mp (wanted.2.2.2 entry isBest)
        exact ⟨matched, isMatched.1, .inr sameName⟩

/-- The best pattern that covers the directory decides, in any order, exactly if below the root no
identity is left to the pattern `/*`. -/
theorem matchDirectory_matched_iff :
    Matched runtime cwd identities ↔ RootSettled runtime cwd identities := by
  constructor
  · intro matched valid entry owned isKind isBase below notRoot notBelow
    rcases matchDirectory_cases runtime cwd identities with
      ⟨invalid, -⟩ | ⟨-, result, isResult, answers⟩
    · exact absurd invalid valid
    · exact rootSettled_of_answers answers (matched.best result isResult)
        ⟨owned, .inr ⟨isKind, isBase ▸ below⟩⟩ ⟨isKind, isBase⟩
  · intro settled
    refine ⟨fun result isResult => ?_, fun error isError => ?_,
      fun others reordered => matchDirectory_reordered reordered⟩
    · rcases matchDirectory_cases runtime cwd identities with
        ⟨-, error, isError⟩ | ⟨valid, other, isOther, answers⟩
      · rw [isError] at isResult
        cases isResult
      · obtain rfl := Except.ok.inj (isOther.symm.trans isResult)
        exact answers_covering valid settled answers
    · rcases matchDirectory_cases runtime cwd identities with
        ⟨invalid, -⟩ | ⟨-, result, isResult, -⟩
      · exact invalid
      · rw [isResult] at isError
        cases isError

/-! ### A pattern for everything -/

def plainPaths : PathRuntime := ⟨"/home/me", fun parts => parts.getLastD "/", fun _ => none⟩

def everything : Identity := ⟨"main", "/home/me/.claude/main", ["/*"], [], false, none, none⟩

/-- The pattern `/*` is not found below the root. -/
theorem matchDirectory_root : ¬ Matched plainPaths "/work" [everything] := by
  intro matched
  have isNone : matchDirectory plainPaths "/work" [everything] = .ok none := by decide +kernel
  refine matched.best none isNone ⟨everything, "/*", ⟨"/*", .recursive, "/"⟩⟩
    ⟨⟨List.mem_singleton_self _, List.mem_singleton_self _, ?_⟩, .inr ⟨rfl, ?_⟩⟩
  · decide +kernel
  · unfold Below
    decide +kernel

end AiSwitcher.Resolution
