/-
This file embeds `src/identities/store.ts` and the parts of `match.ts` and
`colour.ts` it calls: `parseIdentitiesFile` with its validators and their
messages, and `saveIdentitiesFile`. An identity is kept as the JSON object the
source casts to `Identity`, because merging and saving carry members along that
no validator looks at.

The main results characterise acceptance: a file is accepted exactly when every
identity passes its own checks, the names and aliases of all identities together
have no duplicate, and every Chrome override passes its checks.
-/

import Mathlib.Data.List.Nodup
import AiSwitcher.Library.Json
import AiSwitcher.Library.Control
import AiSwitcher.Library.Text

namespace AiSwitcher

open JavaScript

/-- What the process takes from its runtime: `normalizePath`, which asks the file system,
`Date.parse` with `none` for `NaN`, the local home directory, and `AIS_HOST_HOME`. -/
structure Runtime where
  normalizePath : String → String
  dateParse : String → Option ℤ
  localHome : String
  aisHostHome : Option String

/-! ### Directory patterns and colours -/

inductive PatternKind where
  | exact
  | recursive
  deriving DecidableEq

structure ParsedPattern where
  raw : String
  kind : PatternKind
  base : String
  deriving DecidableEq

/-- A pattern has no star, or its only star is the last character and follows a slash. -/
def parseDirectoryPattern (runtime : Runtime) (raw context : String) :
    Except String ParsedPattern :=
  if !raw.toList.contains '*' then
    .ok { raw, kind := .exact, base := runtime.normalizePath raw }
  else if endsWith raw "/*" && raw.toList.idxOf '*' == raw.toList.length - 1 then
    let withoutStar := if sliceToEnd raw 2 = "" then "/" else sliceToEnd raw 2
    .ok { raw, kind := .recursive, base := runtime.normalizePath withoutStar }
  else
    .error (context ++ ": directories pattern \"" ++ raw ++ "\" is invalid — a wildcard is only " ++
      "supported as a whole trailing \"/*\" segment (matches that directory and everything " ++
      "beneath it). Wildcards elsewhere (mid-segment, or without recursive intent) are not " ++
      "supported.")

def isHexDigit (character : Char) : Bool :=
  character.isDigit || ('a' ≤ character && character ≤ 'f') || ('A' ≤ character && character ≤ 'F')

/-- `/^#([0-9a-fA-F]{3}|[0-9a-fA-F]{6})$/` -/
def isValidIdentityColour (raw : String) : Bool :=
  match raw.toList with
  | '#' :: digits => (digits.length == 3 || digits.length == 6) && digits.all isHexDigit
  | _ => false

/-! ### The checks of one member -/

def isNonEmptyString (value : Json) : Bool :=
  value.asString?.any (· ≠ "")

def isString (value : Json) : Bool :=
  value.asString?.isSome

def isStringArray (value : Json) : Bool :=
  value.asStrings?.isSome

def isNonEmptyStringArray (value : Json) : Bool :=
  value.asStrings?.any fun strings => strings.all (· ≠ "")

def isColour (value : Json) : Bool :=
  value.asString?.any isValidIdentityColour

def isTimestamp (runtime : Runtime) (value : Json) : Bool :=
  value.asString?.any fun text => (runtime.dateParse text).isSome

/-- A number from 1 to 100; the test for `NaN` and the infinities is part of it. -/
def isThresholdPercent (value : Json) : Bool :=
  match value.asNumber? with
  | some (.finite percent) => 1 ≤ percent && percent ≤ 100
  | _ => false

/-- The strings of a member that is absent or an array of strings. -/
def stringsOf (object : Object) (key : String) : List String :=
  ((object.get key).bind Json.asStrings?).getD []

/-- The members of a value that `typeof` calls an object and that is not `null`; an array has
none of the members the validators read. -/
def membersOf : Json → Option Object
  | .obj fields => some fields
  | .arr _ => some []
  | _ => none

/-! ### `validateSwapPool` -/

/-- The closure `names` of `validateSwapPool`: the strings of `pool[key]`, `none` when the member
is absent. -/
def poolNames (pool : Object) (owner key : String) : Except String (Option (List String)) :=
  match pool.get key with
  | none => .ok none
  | some raw => do
      ensure (isNonEmptyStringArray raw)
        ("identity \"" ++ owner ++ "\" has a non-string[] \"swapPool." ++ key ++ "\"")
      .ok raw.asStrings?

def validateSwapPool (value : Json) (owner : String) : Except String Unit :=
  match value.asObject? with
  | none => .error ("identity \"" ++ owner ++ "\" has a non-object \"swapPool\"")
  | some pool => do
      let named ← poolNames pool owner "accounts"
      ensure named.isSome ("identity \"" ++ owner ++ "\" swapPool is missing \"accounts\"")
      let accounts := named.getD []
      ensure (decide accounts.Nodup)
        ("identity \"" ++ owner ++ "\" swapPool.accounts has duplicates")
      ensure (!accounts.contains owner)
        ("identity \"" ++ owner ++ "\" lists itself in swapPool.accounts")
      ensure ((pool.get "active").all fun active => active.asString?.any accounts.contains)
        ("identity \"" ++ owner ++ "\" swapPool.active must be one of swapPool.accounts")
      let disallowed ← poolNames pool owner "disallowed"
      ensure (disallowed.all fun names => names.all accounts.contains)
        ("identity \"" ++ owner ++ "\" swapPool.disallowed must be a subset of swapPool.accounts")
      ensure ((pool.get "auto").all Json.isBool)
        ("identity \"" ++ owner ++ "\" has a non-boolean \"swapPool.auto\"")
      ensure ((pool.get "thresholdPercent").all isThresholdPercent)
        ("identity \"" ++ owner ++ "\" swapPool.thresholdPercent must be a number from 1 to 100")

/-! ### `validateIdentity` -/

/-- The loop over `directories`, raising the message of the first bad pattern. -/
def validatePatterns (runtime : Runtime) (context : String) : List String → Except String Unit
  | [] => .ok ()
  | raw :: rest => do
      let _ ← parseDirectoryPattern runtime raw context
      validatePatterns runtime context rest

/-- The name an object has in messages and in the registry. -/
def nameOf (identity : Object) : String :=
  ((identity.get "name").bind Json.asString?).getD ""

/-- The loop over the entries of `env`. -/
def validateEnvEntries (name : String) : List (String × Json) → Except String Unit
  | [] => .ok ()
  | (key, value) :: rest => do
      ensure (isString value)
        ("identity \"" ++ name ++ "\" has a non-string env value for \"" ++ key ++ "\"")
      validateEnvEntries name rest

def validateEnv (name : String) : Option Json → Except String Unit
  | none => .ok ()
  | some value =>
      match value.asObject? with
      | none => .error ("identity \"" ++ name ++ "\" has a non-object \"env\"")
      | some entries => validateEnvEntries name entries

/-- `if (rec.swapPool !== undefined) validateSwapPool(rec.swapPool, name)` -/
def validateSwapPoolMember (name : String) : Option Json → Except String Unit
  | none => .ok ()
  | some pool => validateSwapPool pool name

def validateIdentityMembers (runtime : Runtime) (rec : Object) (index : Nat) :
    Except String Unit := do
  let name := nameOf rec
  ensure ((rec.get "name").any isNonEmptyString)
    ("identities[" ++ toString index ++ "] missing a non-empty \"name\"")
  ensure ((rec.get "label").any isNonEmptyString)
    ("identity \"" ++ name ++ "\" missing a non-empty \"label\"")
  ensure ((rec.get "description").all isString)
    ("identity \"" ++ name ++ "\" has a non-string \"description\"")
  ensure ((rec.get "configDir").any isNonEmptyString)
    ("identity \"" ++ name ++ "\" missing a non-empty \"configDir\"")
  ensure ((rec.get "directories").all isStringArray)
    ("identity \"" ++ name ++ "\" has a non-string[] \"directories\"")
  validatePatterns runtime ("identity \"" ++ name ++ "\"") (stringsOf rec "directories")
  ensure ((rec.get "aliases").all isNonEmptyStringArray)
    ("identity \"" ++ name ++ "\" has a non-string[] \"aliases\"")
  ensure ((rec.get "colour").all isColour)
    ("identity \"" ++ name ++ "\" has an invalid \"colour\" (use #rgb or #rrggbb)")
  ensure ((rec.get "retired").all Json.isBool)
    ("identity \"" ++ name ++ "\" has a non-boolean \"retired\"")
  ensure ((rec.get "retiredAt").all (isTimestamp runtime))
    ("identity \"" ++ name ++ "\" has an invalid \"retiredAt\" (use an ISO 8601 timestamp)")
  ensure ((rec.get "unretiredAt").all (isTimestamp runtime))
    ("identity \"" ++ name ++ "\" has an invalid \"unretiredAt\" (use an ISO 8601 timestamp)")
  validateSwapPoolMember name (rec.get "swapPool")
  validateEnv name (rec.get "env")

def validateIdentity (runtime : Runtime) (identity : Json) (index : Nat) :
    Except String Object :=
  match membersOf identity with
  | none => .error ("identities[" ++ toString index ++ "] is not an object")
  | some rec => do
      validateIdentityMembers runtime rec index
      .ok rec

/-! ### `validateChromeProfileOverride` -/

def validateChromeProfileOverride (runtime : Runtime) (override : Json) (index : Nat) :
    Except String Unit :=
  match membersOf override with
  | none => .error ("chromeProfileOverrides[" ++ toString index ++ "] is not an object")
  | some rec => do
      ensure ((rec.get "directories").any isNonEmptyStringArray &&
          !(stringsOf rec "directories").isEmpty)
        ("chromeProfileOverrides[" ++ toString index ++
          "] missing a non-empty \"directories\" string[]")
      validatePatterns runtime ("chromeProfileOverrides[" ++ toString index ++ "]")
        (stringsOf rec "directories")
      ensure ((rec.get "targetIdentity").any isNonEmptyString)
        ("chromeProfileOverrides[" ++ toString index ++ "] missing a non-empty \"targetIdentity\"")
      ensure ((rec.get "label").all isString)
        ("chromeProfileOverrides[" ++ toString index ++ "] has a non-string \"label\"")

/-! ### `parseIdentitiesFile` -/

structure IdentitiesFile where
  identities : List Object
  chromeProfileOverrides : Option (List Json)

/-- The keys `--identity=<key>` resolves: the name and the aliases. -/
def keysOf (identity : Object) : List String :=
  nameOf identity :: stringsOf identity "aliases"

/-- The inner loop over the keys of one identity, with `seenKeys` as the accumulator. -/
def registerKeys (seenKeys : List String) : List String → Except String (List String)
  | [] => .ok seenKeys
  | key :: rest => do
      ensure (!seenKeys.contains key) ("duplicate identity name/alias \"" ++ key ++ "\"")
      registerKeys (key :: seenKeys) rest

/-- The `forEach` over the identities. -/
def parseIdentities (runtime : Runtime) :
    (index : Nat) → (seenKeys : List String) → List Json → Except String (List Object)
  | _, _, [] => .ok []
  | index, seenKeys, raw :: rest => do
      let identity ← validateIdentity runtime raw index
      let seen ← registerKeys seenKeys (keysOf identity)
      let identities ← parseIdentities runtime (index + 1) seen rest
      .ok (identity :: identities)

/-- The `forEach` over the Chrome overrides. -/
def validateOverrides (runtime : Runtime) : (index : Nat) → List Json → Except String Unit
  | _, [] => .ok ()
  | index, override :: rest => do
      validateChromeProfileOverride runtime override index
      validateOverrides runtime (index + 1) rest

def parseOverrides (runtime : Runtime) : Option Json → Except String (Option (List Json))
  | none => .ok none
  | some raw =>
      match raw.asArray? with
      | none => .error "identities file has a non-array \"chromeProfileOverrides\""
      | some overrides => do
          validateOverrides runtime 0 overrides
          .ok (some overrides)

def parseIdentitiesFile (runtime : Runtime) (raw : Json) : Except String IdentitiesFile :=
  match membersOf raw with
  | none => .error "identities file is not a JSON object"
  | some rec => do
      ensure (rec.get "version" == some (.num (.finite 1)))
        "identities file has unsupported \"version\" (expected 1)"
      match (rec.get "identities").bind Json.asArray? with
      | none => .error "identities file missing \"identities\" array"
      | some raws => do
          let identities ← parseIdentities runtime 0 [] raws
          let chromeProfileOverrides ← parseOverrides runtime (rec.get "chromeProfileOverrides")
          .ok { identities, chromeProfileOverrides }

/-! ### `saveIdentitiesFile` -/

def stripTrailingSlash (path : String) : String :=
  if path.toList.length > 1 && endsWith path "/" then sliceToEnd path 1 else path

/-- `AIS_HOST_HOME` when it is set to something, the local home otherwise. -/
def hostHome (runtime : Runtime) : String :=
  let given := (runtime.aisHostHome.map trim).getD ""
  stripTrailingSlash (if given = "" then runtime.localHome else given)

def untranslateHostPath (runtime : Runtime) (raw : String) : String :=
  if hostHome runtime = runtime.localHome ∨ hostHome runtime = "" then raw
  else if raw = runtime.localHome then hostHome runtime
  else if startsWith raw (runtime.localHome ++ "/") then
    hostHome runtime ++ sliceFrom raw runtime.localHome.toList.length
  else raw

/-- The member `configDir` of an accepted identity. -/
def configDirOf (identity : Object) : String :=
  ((identity.get "configDir").bind Json.asString?).getD ""

/-- One identity as `saveIdentitiesFile` writes it. -/
def savedIdentity (runtime : Runtime) (identity : Object) : Object :=
  identity.assign "configDir" (some (.str (untranslateHostPath runtime (configDirOf identity))))

/-- The JSON text of the saved registry, as its next reader parses it. -/
def saveIdentitiesFile (runtime : Runtime) (data : IdentitiesFile) : Json :=
  Json.written (.obj ([("version", .num (.finite 1)),
      ("identities", .arr (data.identities.map fun identity =>
        .obj (savedIdentity runtime identity)))] ++
    match data.chromeProfileOverrides with
    | none => []
    | some overrides => [("chromeProfileOverrides", .arr overrides)]))

/-! ### What the validators accept -/

def isDirectoryPattern (raw : String) : Bool :=
  !raw.toList.contains '*' ||
    (endsWith raw "/*" && raw.toList.idxOf '*' == raw.toList.length - 1)

theorem exists_parseDirectoryPattern_eq_ok (runtime : Runtime) (raw context : String) :
    (∃ pattern, parseDirectoryPattern runtime raw context = .ok pattern) ↔
      isDirectoryPattern raw = true := by
  unfold parseDirectoryPattern isDirectoryPattern
  split
  · rename_i starless
    exact iff_of_true ⟨_, rfl⟩ (by rw [starless, Bool.true_or])
  · rename_i starred
    rw [Bool.eq_false_of_not_eq_true starred, Bool.false_or]
    split
    · rename_i trailing
      exact iff_of_true ⟨_, rfl⟩ trailing
    · rename_i misplaced
      exact iff_of_false (by rintro ⟨_, accepted⟩; cases accepted) misplaced

theorem validatePatterns_eq_ok (runtime : Runtime) (context : String) (raws : List String) :
    validatePatterns runtime context raws = .ok () ↔ ∀ raw ∈ raws, isDirectoryPattern raw := by
  induction raws with
  | nil => simp [validatePatterns]
  | cons raw rest inductionHypothesis =>
    rw [validatePatterns, bind_eq_ok, List.forall_mem_cons, ← inductionHypothesis,
      ← exists_parseDirectoryPattern_eq_ok runtime raw context, exists_and_right]

/-- What `validateSwapPool` accepts. -/
structure ValidSwapPool (pool : Object) (owner : String) : Prop where
  accounts : (pool.get "accounts").any isNonEmptyStringArray
  distinct : (stringsOf pool "accounts").Nodup
  notItself : owner ∉ stringsOf pool "accounts"
  active : (pool.get "active").all fun active =>
    active.asString?.any (stringsOf pool "accounts").contains
  disallowed : (pool.get "disallowed").all isNonEmptyStringArray
  disallowedSubset : ∀ name ∈ stringsOf pool "disallowed", name ∈ stringsOf pool "accounts"
  auto : (pool.get "auto").all Json.isBool
  thresholdPercent : (pool.get "thresholdPercent").all isThresholdPercent

theorem isSome_asStrings?_of_isNonEmptyStringArray {value : Json}
    (valid : isNonEmptyStringArray value = true) : value.asStrings?.isSome := by
  cases strings : value.asStrings? with
  | none => simp [isNonEmptyStringArray, strings] at valid
  | some names => rfl

theorem poolNames_eq_ok (pool : Object) (owner key : String) (names : Option (List String)) :
    poolNames pool owner key = .ok names ↔
      (pool.get key).all isNonEmptyStringArray ∧ names = (pool.get key).bind Json.asStrings? := by
  unfold poolNames
  cases pool.get key with
  | none =>
    exact ⟨fun absent => ⟨rfl, (Except.ok.inj absent).symm⟩, fun absent => by rw [absent.2]; rfl⟩
  | some raw =>
    rw [ensure_bind_eq_ok, Except.ok.injEq, @eq_comm _ names]
    rfl

theorem validateSwapPool_eq_ok (value : Json) (owner : String) :
    validateSwapPool value owner = .ok () ↔
      ∃ pool, value.asObject? = some pool ∧ ValidSwapPool pool owner := by
  unfold validateSwapPool
  cases value.asObject? with
  | none => simp
  | some pool =>
    simp only [bind_eq_ok (poolNames _ _ _), poolNames_eq_ok, ensure_bind_eq_ok, ensure_eq_ok,
      Option.some.injEq, exists_eq_left']
    constructor
    · rintro ⟨named, ⟨strings, rfl⟩, present, distinct, notItself, active, disallowed,
        ⟨disallowedStrings, rfl⟩, disallowedSubset, auto, thresholdPercent⟩
      refine ⟨?_, by simpa [stringsOf] using distinct, by simpa [stringsOf] using notItself,
        active, disallowedStrings, ?_, auto, thresholdPercent⟩
      · cases found : pool.get "accounts" with
        | none => simp [found] at present
        | some raw => simpa [found] using strings
      · intro name member
        cases found : (pool.get "disallowed").bind Json.asStrings? with
        | none => simp [stringsOf, found] at member
        | some names =>
          simp only [found, Option.all_some, List.all_eq_true] at disallowedSubset
          have named : name ∈ names := by simpa [stringsOf, found] using member
          simpa [stringsOf] using disallowedSubset name named
    · intro valid
      have strings : (pool.get "accounts").all isNonEmptyStringArray := by
        have accounts := valid.accounts
        cases found : pool.get "accounts" with
        | none => simp [found] at accounts
        | some raw => simpa [found] using accounts
      refine ⟨_, ⟨strings, rfl⟩, ?_, by simpa [stringsOf] using valid.distinct,
        by simpa [stringsOf] using valid.notItself, valid.active, _, ⟨valid.disallowed, rfl⟩, ?_,
        valid.auto, valid.thresholdPercent⟩
      · have accounts := valid.accounts
        cases found : pool.get "accounts" with
        | none => simp [found] at accounts
        | some raw =>
          simp only [found, Option.any_some] at accounts
          simpa using isSome_asStrings?_of_isNonEmptyStringArray accounts
      · cases found : (pool.get "disallowed").bind Json.asStrings? with
        | none => rfl
        | some names =>
          simp only [Option.all_some, List.all_eq_true]
          intro name member
          simpa [stringsOf] using valid.disallowedSubset name (by simpa [stringsOf, found] using member)

/-- What `validateEnv` accepts: strings only. -/
def isEnv (value : Json) : Bool :=
  value.asObject?.any fun entries => entries.all fun entry => isString entry.2

theorem validateEnvEntries_eq_ok (name : String) (entries : List (String × Json)) :
    validateEnvEntries name entries = .ok () ↔
      (entries.all fun entry => isString entry.2) = true := by
  induction entries with
  | nil => simp [validateEnvEntries]
  | cons entry rest inductionHypothesis =>
    obtain ⟨key, value⟩ := entry
    rw [validateEnvEntries, ensure_bind_eq_ok, inductionHypothesis, List.all_cons, Bool.and_eq_true]

theorem validateEnv_eq_ok (name : String) (env : Option Json) :
    validateEnv name env = .ok () ↔ env.all isEnv = true := by
  cases env with
  | none => simp [validateEnv]
  | some value =>
    cases found : value.asObject? with
    | none => simp [validateEnv, isEnv, found]
    | some entries => simp [validateEnv, isEnv, found, validateEnvEntries_eq_ok]

/-- What `validateIdentity` accepts. -/
structure ValidIdentity (runtime : Runtime) (identity : Object) : Prop where
  name : (identity.get "name").any isNonEmptyString
  label : (identity.get "label").any isNonEmptyString
  description : (identity.get "description").all isString
  configDir : (identity.get "configDir").any isNonEmptyString
  directories : (identity.get "directories").all isStringArray
  patterns : ∀ raw ∈ stringsOf identity "directories", isDirectoryPattern raw
  aliases : (identity.get "aliases").all isNonEmptyStringArray
  colour : (identity.get "colour").all isColour
  retired : (identity.get "retired").all Json.isBool
  retiredAt : (identity.get "retiredAt").all (isTimestamp runtime)
  unretiredAt : (identity.get "unretiredAt").all (isTimestamp runtime)
  swapPool : ∀ value, identity.get "swapPool" = some value →
    ∃ pool, value.asObject? = some pool ∧ ValidSwapPool pool (nameOf identity)
  env : (identity.get "env").all isEnv

theorem validateSwapPoolMember_eq_ok (name : String) (member : Option Json) :
    validateSwapPoolMember name member = .ok () ↔
      ∀ value, member = some value →
        ∃ pool, value.asObject? = some pool ∧ ValidSwapPool pool name := by
  cases member with
  | none => simp [validateSwapPoolMember]
  | some value => simp [validateSwapPoolMember, validateSwapPool_eq_ok]

theorem validateIdentityMembers_eq_ok (runtime : Runtime) (identity : Object) (index : Nat) :
    validateIdentityMembers runtime identity index = .ok () ↔ ValidIdentity runtime identity := by
  unfold validateIdentityMembers
  simp only [check_bind_eq_ok, ensure_eq_ok, validatePatterns_eq_ok, validateSwapPoolMember_eq_ok,
    validateEnv_eq_ok]
  constructor
  · rintro ⟨name, label, description, configDir, directories, patterns, aliases, colour, retired,
      retiredAt, unretiredAt, swapPool, env⟩
    exact { name, label, description, configDir, directories, patterns, aliases, colour, retired,
            retiredAt, unretiredAt, swapPool, env }
  · intro valid
    exact ⟨valid.name, valid.label, valid.description, valid.configDir, valid.directories,
      valid.patterns, valid.aliases, valid.colour, valid.retired, valid.retiredAt,
      valid.unretiredAt, valid.swapPool, valid.env⟩

theorem validateIdentity_eq_ok (runtime : Runtime) (raw : Json) (index : Nat)
    (identity : Object) :
    validateIdentity runtime raw index = .ok identity ↔
      membersOf raw = some identity ∧ ValidIdentity runtime identity := by
  unfold validateIdentity
  cases membersOf raw with
  | none => simp
  | some rec =>
    simp only [check_bind_eq_ok, validateIdentityMembers_eq_ok, Except.ok.injEq,
      Option.some.injEq]
    constructor
    · rintro ⟨valid, rfl⟩
      exact ⟨rfl, valid⟩
    · rintro ⟨rfl, valid⟩
      exact ⟨valid, rfl⟩

/-- What `validateChromeProfileOverride` accepts. -/
structure ValidOverride (override : Json) : Prop where
  object : (membersOf override).isSome
  directories : ∀ rec, membersOf override = some rec →
    ((rec.get "directories").any isNonEmptyStringArray &&
      !(stringsOf rec "directories").isEmpty) = true
  patterns : ∀ rec, membersOf override = some rec →
    ∀ raw ∈ stringsOf rec "directories", isDirectoryPattern raw
  targetIdentity : ∀ rec, membersOf override = some rec →
    (rec.get "targetIdentity").any isNonEmptyString
  label : ∀ rec, membersOf override = some rec → (rec.get "label").all isString

theorem validateChromeProfileOverride_eq_ok (runtime : Runtime) (override : Json) (index : Nat) :
    validateChromeProfileOverride runtime override index = .ok () ↔ ValidOverride override := by
  unfold validateChromeProfileOverride
  cases found : membersOf override with
  | none =>
    exact iff_of_false (by simp) fun valid => by simpa [found] using valid.object
  | some rec =>
    simp only [check_bind_eq_ok, ensure_eq_ok, validatePatterns_eq_ok]
    constructor
    · rintro ⟨directories, patterns, targetIdentity, label⟩
      refine ⟨by simp [found], ?_, ?_, ?_, ?_⟩ <;> intro other equal <;>
        obtain rfl := Option.some.inj (found.symm.trans equal) <;> assumption
    · intro valid
      exact ⟨valid.directories rec found, valid.patterns rec found,
        valid.targetIdentity rec found, valid.label rec found⟩

theorem validateOverrides_eq_ok (runtime : Runtime) (index : Nat) (overrides : List Json) :
    validateOverrides runtime index overrides = .ok () ↔
      ∀ override ∈ overrides, ValidOverride override := by
  induction overrides generalizing index with
  | nil => simp [validateOverrides]
  | cons override rest inductionHypothesis =>
    rw [validateOverrides, check_bind_eq_ok, List.forall_mem_cons,
      inductionHypothesis (index + 1), validateChromeProfileOverride_eq_ok runtime override index]

/-! ### The shared namespace -/

/-- The accumulator takes every key, each of them new. -/
theorem registerKeys_eq_ok (seenKeys keys result : List String) :
    registerKeys seenKeys keys = .ok result ↔
      result = keys.reverse ++ seenKeys ∧ keys.Nodup ∧ keys.Disjoint seenKeys := by
  induction keys generalizing seenKeys with
  | nil => simp [registerKeys, eq_comm]
  | cons key rest inductionHypothesis =>
    rw [registerKeys, ensure_bind_eq_ok, inductionHypothesis, List.nodup_cons,
      List.disjoint_cons_left, List.disjoint_cons_right, List.reverse_cons, List.append_assoc,
      List.singleton_append]
    simp only [Bool.not_eq_true', List.contains_eq_mem, decide_eq_false_iff_not]
    constructor
    · rintro ⟨unseen, equal, distinct, fresh, disjoint⟩
      exact ⟨equal, ⟨fresh, distinct⟩, unseen, disjoint⟩
    · rintro ⟨equal, ⟨fresh, distinct⟩, unseen, disjoint⟩
      exact ⟨unseen, equal, distinct, fresh, disjoint⟩

/-- The loop over the identities accepts exactly objects that each pass their checks and whose
keys are, all together and with the keys seen before, without a duplicate. -/
theorem parseIdentities_eq_ok (runtime : Runtime) (index : Nat) (seenKeys : List String)
    (raws : List Json) (identities : List Object) :
    parseIdentities runtime index seenKeys raws = .ok identities ↔
      raws.map membersOf = identities.map some ∧
        (∀ identity ∈ identities, ValidIdentity runtime identity) ∧
        (identities.flatMap keysOf).Nodup ∧ (identities.flatMap keysOf).Disjoint seenKeys := by
  induction raws generalizing index seenKeys identities with
  | nil =>
    rw [parseIdentities]
    constructor
    · intro done
      obtain rfl := Except.ok.inj done
      simp
    · rintro ⟨same, -⟩
      have none : identities = [] := by simpa using same.symm
      rw [none]
  | cons raw rest inductionHypothesis =>
    simp only [parseIdentities, bind_eq_ok, validateIdentity_eq_ok, registerKeys_eq_ok,
      inductionHypothesis, Except.ok.injEq]
    constructor
    · rintro ⟨identity, ⟨object, valid⟩, _, ⟨rfl, distinct, unseen⟩, tail,
        ⟨objects, valids, distincts, disjoint⟩, rfl⟩
      rw [List.disjoint_append_right] at disjoint
      refine ⟨by simp [object, objects], List.forall_mem_cons.mpr ⟨valid, valids⟩, ?_, ?_⟩
      · rw [List.flatMap_cons, List.nodup_append']
        exact ⟨distinct, distincts, fun key inHead inTail =>
          disjoint.1 inTail (List.mem_reverse.mpr inHead)⟩
      · rw [List.flatMap_cons, List.disjoint_append_left]
        exact ⟨unseen, disjoint.2⟩
    · rintro ⟨objects, valids, distincts, disjoint⟩
      cases identities with
      | nil => simp at objects
      | cons identity tail =>
        rw [List.map_cons, List.map_cons, List.cons.injEq] at objects
        rw [List.forall_mem_cons] at valids
        rw [List.flatMap_cons, List.nodup_append'] at distincts
        rw [List.flatMap_cons, List.disjoint_append_left] at disjoint
        refine ⟨identity, ⟨objects.1, valids.1⟩, _, ⟨rfl, distincts.1, disjoint.1⟩, tail,
          ⟨objects.2, valids.2, distincts.2.1, ?_⟩, rfl⟩
        rw [List.disjoint_append_right]
        exact ⟨fun key inTail inHead => distincts.2.2 (List.mem_reverse.mp inHead) inTail,
          disjoint.2⟩

/-- What `parseIdentitiesFile` returns: the identities pass their checks, their names and aliases
share one namespace without a duplicate, and the overrides pass theirs. -/
structure ValidFile (runtime : Runtime) (file : IdentitiesFile) : Prop where
  identities : ∀ identity ∈ file.identities, ValidIdentity runtime identity
  namespaces : (file.identities.flatMap keysOf).Nodup
  overrides : ∀ overrides, file.chromeProfileOverrides = some overrides →
    ∀ override ∈ overrides, ValidOverride override

theorem parseOverrides_eq_ok (runtime : Runtime) (raw : Option Json)
    (result : Option (List Json)) :
    parseOverrides runtime raw = .ok result ↔
      (raw = none ∧ result = none) ∨
        ∃ overrides, raw.bind Json.asArray? = some overrides ∧ result = some overrides ∧
          ∀ override ∈ overrides, ValidOverride override := by
  cases raw with
  | none => simp [parseOverrides, eq_comm]
  | some value =>
    simp only [parseOverrides, Option.bind_some, reduceCtorEq, false_and, false_or]
    cases value.asArray? with
    | none => simp
    | some overrides =>
      simp only [check_bind_eq_ok, validateOverrides_eq_ok, Except.ok.injEq]
      constructor
      · rintro ⟨valid, rfl⟩
        exact ⟨overrides, rfl, rfl, valid⟩
      · rintro ⟨_, found, rfl, valid⟩
        obtain rfl := Option.some.inj found
        exact ⟨valid, rfl⟩

/-- A parsed file is valid. -/
theorem validFile_of_parse (runtime : Runtime) (raw : Json) (file : IdentitiesFile)
    (parsed : parseIdentitiesFile runtime raw = .ok file) : ValidFile runtime file := by
  unfold parseIdentitiesFile at parsed
  cases found : membersOf raw with
  | none => simp [found] at parsed
  | some rec =>
    simp only [found, ensure_bind_eq_ok] at parsed
    cases listed : (rec.get "identities").bind Json.asArray? with
    | none => simp [listed] at parsed
    | some raws =>
      simp only [listed, bind_eq_ok, Except.ok.injEq] at parsed
      obtain ⟨_, identities, accepted, overrides, acceptedOverrides, rfl⟩ := parsed
      obtain ⟨-, valid, distinct, -⟩ := (parseIdentities_eq_ok _ _ _ _ _).mp accepted
      refine ⟨valid, distinct, ?_⟩
      intro list equal override member
      obtain ⟨-, absent⟩ | ⟨_, -, present, validOverrides⟩ :=
        (parseOverrides_eq_ok _ _ _).mp acceptedOverrides
      · simp [absent] at equal
      · obtain rfl := Option.some.inj (present.symm.trans equal)
        exact validOverrides override member

/-! ### Saving and reading back -/

theorem stringsOf_writtenMembers (object : Object) (key : String) :
    stringsOf (writtenMembers object) key = stringsOf object key := by
  rw [stringsOf, stringsOf, Object.get_written]
  cases object.get key with
  | none => rfl
  | some value => simp [Json.asStrings?_written]

theorem nameOf_writtenMembers (object : Object) : nameOf (writtenMembers object) = nameOf object := by
  rw [nameOf, nameOf, Object.get_written]
  cases object.get "name" with
  | none => rfl
  | some value => simp [Json.asString?_written]

/-- A check that reads a value only as a string or as strings sees no difference. -/
theorem any_get_writtenMembers (object : Object) (key : String) (check : Json → Bool)
    (same : ∀ value, check value.written = check value) :
    ((writtenMembers object).get key).any check = (object.get key).any check := by
  rw [Object.get_written]
  cases object.get key with
  | none => rfl
  | some value => exact same value

theorem all_get_writtenMembers (object : Object) (key : String) (check : Json → Bool)
    (same : ∀ value, check value.written = check value) :
    ((writtenMembers object).get key).all check = (object.get key).all check := by
  rw [Object.get_written]
  cases object.get key with
  | none => rfl
  | some value => exact same value

theorem isNonEmptyString_written (value : Json) :
    isNonEmptyString value.written = isNonEmptyString value := by
  rw [isNonEmptyString, isNonEmptyString, Json.asString?_written]

theorem isString_written (value : Json) : isString value.written = isString value := by
  rw [isString, isString, Json.asString?_written]

theorem isNonEmptyStringArray_written (value : Json) :
    isNonEmptyStringArray value.written = isNonEmptyStringArray value := by
  rw [isNonEmptyStringArray, isNonEmptyStringArray, Json.asStrings?_written]

theorem isThresholdPercent_written (value : Json) :
    isThresholdPercent value.written = isThresholdPercent value := by
  cases value with
  | num number => cases number <;> rfl
  | arr items => rw [Json.written_arr]; rfl
  | obj fields => rw [Json.written_obj]; rfl
  | _ => rfl

theorem isEnv_written (value : Json) : isEnv value.written = isEnv value := by
  rw [isEnv, isEnv, Json.asObject?_written]
  cases value.asObject? with
  | none => rfl
  | some fields => simp [List.all_map, Function.comp_def, isString_written]

theorem ValidSwapPool.written {pool : Object} {owner : String} (valid : ValidSwapPool pool owner) :
    ValidSwapPool (writtenMembers pool) owner where
  accounts := by
    rw [any_get_writtenMembers _ _ _ isNonEmptyStringArray_written]
    exact valid.accounts
  distinct := by
    rw [stringsOf_writtenMembers]
    exact valid.distinct
  notItself := by
    rw [stringsOf_writtenMembers]
    exact valid.notItself
  active := by
    rw [stringsOf_writtenMembers, all_get_writtenMembers]
    · exact valid.active
    · intro value
      rw [Json.asString?_written]
  disallowed := by
    rw [all_get_writtenMembers _ _ _ isNonEmptyStringArray_written]
    exact valid.disallowed
  disallowedSubset := by
    rw [stringsOf_writtenMembers, stringsOf_writtenMembers]
    exact valid.disallowedSubset
  auto := by
    rw [all_get_writtenMembers _ _ _ Json.isBool_written]
    exact valid.auto
  thresholdPercent := by
    rw [all_get_writtenMembers _ _ _ isThresholdPercent_written]
    exact valid.thresholdPercent

theorem ValidIdentity.written {runtime : Runtime} {identity : Object}
    (valid : ValidIdentity runtime identity) :
    ValidIdentity runtime (writtenMembers identity) where
  name := by
    rw [any_get_writtenMembers _ _ _ isNonEmptyString_written]
    exact valid.name
  label := by
    rw [any_get_writtenMembers _ _ _ isNonEmptyString_written]
    exact valid.label
  description := by
    rw [all_get_writtenMembers _ _ _ isString_written]
    exact valid.description
  configDir := by
    rw [any_get_writtenMembers _ _ _ isNonEmptyString_written]
    exact valid.configDir
  directories := by
    rw [all_get_writtenMembers]
    · exact valid.directories
    · intro value
      rw [isStringArray, isStringArray, Json.asStrings?_written]
  patterns := by
    rw [stringsOf_writtenMembers]
    exact valid.patterns
  aliases := by
    rw [all_get_writtenMembers _ _ _ isNonEmptyStringArray_written]
    exact valid.aliases
  colour := by
    rw [all_get_writtenMembers]
    · exact valid.colour
    · intro value
      rw [isColour, isColour, Json.asString?_written]
  retired := by
    rw [all_get_writtenMembers _ _ _ Json.isBool_written]
    exact valid.retired
  retiredAt := by
    rw [all_get_writtenMembers]
    · exact valid.retiredAt
    · intro value
      rw [isTimestamp, isTimestamp, Json.asString?_written]
  unretiredAt := by
    rw [all_get_writtenMembers]
    · exact valid.unretiredAt
    · intro value
      rw [isTimestamp, isTimestamp, Json.asString?_written]
  swapPool := by
    intro value found
    rw [Object.get_written, Option.map_eq_some_iff] at found
    obtain ⟨original, present, rfl⟩ := found
    obtain ⟨pool, object, validPool⟩ := valid.swapPool original present
    refine ⟨writtenMembers pool, ?_, ?_⟩
    · rw [Json.asObject?_written, object]
      rfl
    · rw [nameOf_writtenMembers]
      exact validPool.written
  env := by
    rw [all_get_writtenMembers _ _ _ isEnv_written]
    exact valid.env

/-- A translated path is empty only if the path was. -/
theorem untranslateHostPath_ne_empty (runtime : Runtime) (raw : String) (present : raw ≠ "") :
    untranslateHostPath runtime raw ≠ "" := by
  unfold untranslateHostPath
  split
  · exact present
  · rename_i translated
    rw [not_or] at translated
    split
    · exact translated.2
    · split
      · intro empty
        have length := congrArg String.length empty
        rw [String.length_append] at length
        have zero : (hostHome runtime).length = 0 := by
          have none : "".length = 0 := rfl
          omega
        exact translated.2 (String.length_eq_zero_iff.mp zero)
      · exact present

theorem get_savedIdentity (runtime : Runtime) (identity : Object) (key : String)
    (other : key ≠ "configDir") : (savedIdentity runtime identity).get key = identity.get key := by
  rw [savedIdentity, Members.get_assign, if_neg other]

theorem stringsOf_savedIdentity (runtime : Runtime) (identity : Object) (key : String)
    (other : key ≠ "configDir") :
    stringsOf (savedIdentity runtime identity) key = stringsOf identity key := by
  rw [stringsOf, stringsOf, get_savedIdentity runtime identity key other]

theorem nameOf_savedIdentity (runtime : Runtime) (identity : Object) :
    nameOf (savedIdentity runtime identity) = nameOf identity := by
  rw [nameOf, nameOf, get_savedIdentity runtime identity "name" (by decide)]

theorem ValidIdentity.saved {runtime : Runtime} {identity : Object}
    (valid : ValidIdentity runtime identity) :
    ValidIdentity runtime (savedIdentity runtime identity) := by
  have same := get_savedIdentity runtime identity
  have strings := stringsOf_savedIdentity runtime identity
  have configDir : configDirOf identity ≠ "" := by
    have given := valid.configDir
    intro empty
    rw [configDirOf] at empty
    cases found : identity.get "configDir" with
    | none => simp [found] at given
    | some value =>
      cases text : value.asString? with
      | none => simp [found, isNonEmptyString, text] at given
      | some path =>
        simp only [found, Option.bind_some, text, Option.getD_some] at empty
        simp [found, isNonEmptyString, text, empty] at given
  constructor
  case configDir =>
    rw [savedIdentity, Members.get_assign, if_pos rfl]
    simpa [isNonEmptyString, Json.asString?] using
      untranslateHostPath_ne_empty runtime _ configDir
  case patterns =>
    rw [strings "directories" (by decide)]
    exact valid.patterns
  case swapPool =>
    rw [same "swapPool" (by decide), nameOf_savedIdentity]
    exact valid.swapPool
  case name => rw [same "name" (by decide)]; exact valid.name
  case label => rw [same "label" (by decide)]; exact valid.label
  case description => rw [same "description" (by decide)]; exact valid.description
  case directories => rw [same "directories" (by decide)]; exact valid.directories
  case aliases => rw [same "aliases" (by decide)]; exact valid.aliases
  case colour => rw [same "colour" (by decide)]; exact valid.colour
  case retired => rw [same "retired" (by decide)]; exact valid.retired
  case retiredAt => rw [same "retiredAt" (by decide)]; exact valid.retiredAt
  case unretiredAt => rw [same "unretiredAt" (by decide)]; exact valid.unretiredAt
  case env => rw [same "env" (by decide)]; exact valid.env

theorem keysOf_saved (runtime : Runtime) (identity : Object) :
    keysOf (writtenMembers (savedIdentity runtime identity)) = keysOf identity := by
  rw [keysOf, keysOf, nameOf_writtenMembers, nameOf_savedIdentity, stringsOf_writtenMembers,
    stringsOf_savedIdentity runtime identity "aliases" (by decide)]

theorem membersOf_written (value : Json) :
    membersOf value.written = (membersOf value).map writtenMembers := by
  cases value with
  | arr items => rw [Json.written_arr]; rfl
  | num number => cases number <;> rfl
  | obj fields => rw [Json.written_obj]; rfl
  | _ => rfl

theorem ValidOverride.written {override : Json} (valid : ValidOverride override) :
    ValidOverride override.written := by
  cases found : membersOf override with
  | none => exact absurd valid.object (by simp [found])
  | some rec =>
    have members : ∀ other, membersOf override.written = some other → other = writtenMembers rec := by
      intro other equal
      rw [membersOf_written, found] at equal
      exact (Option.some.inj equal).symm
    refine ⟨by simp [membersOf_written, found], ?_, ?_, ?_, ?_⟩ <;> intro other equal <;>
      obtain rfl := members other equal
    · rw [any_get_writtenMembers _ _ _ isNonEmptyStringArray_written, stringsOf_writtenMembers]
      exact valid.directories rec found
    · rw [stringsOf_writtenMembers]
      exact valid.patterns rec found
    · rw [any_get_writtenMembers _ _ _ isNonEmptyString_written]
      exact valid.targetIdentity rec found
    · rw [all_get_writtenMembers _ _ _ isString_written]
      exact valid.label rec found

/-- The identities a saved registry is read back with. -/
def readBack (runtime : Runtime) (file : IdentitiesFile) : List Object :=
  file.identities.map fun identity => writtenMembers (savedIdentity runtime identity)

/-- The members of a saved registry. -/
theorem membersOf_saveIdentitiesFile (runtime : Runtime) (file : IdentitiesFile) :
    ∃ rec, membersOf (saveIdentitiesFile runtime file) = some rec ∧
      rec.get "version" = some (.num (.finite 1)) ∧
      rec.get "identities" = some (.arr ((readBack runtime file).map .obj)) ∧
      rec.get "chromeProfileOverrides" =
        file.chromeProfileOverrides.map fun overrides => .arr (overrides.map Json.written) := by
  have objects : (file.identities.map fun identity => Json.obj (savedIdentity runtime identity)).map
      Json.written = (readBack runtime file).map .obj := by
    rw [readBack, List.map_map, List.map_map]
    refine List.map_congr_left fun identity _ => ?_
    exact Json.written_obj _
  unfold saveIdentitiesFile
  cases file.chromeProfileOverrides with
  | none =>
    refine ⟨_, by rw [Json.written_obj]; rfl, rfl, ?_, rfl⟩
    rw [← objects, ← Json.written_arr]
    rfl
  | some overrides =>
    refine ⟨_, by rw [Json.written_obj]; rfl, rfl, ?_, ?_⟩
    · rw [← objects, ← Json.written_arr]
      rfl
    · rw [Option.map_some, ← Json.written_arr]
      rfl

theorem parse_saveIdentitiesFile_eq_ok (runtime : Runtime) (file parsed : IdentitiesFile) :
    parseIdentitiesFile runtime (saveIdentitiesFile runtime file) = .ok parsed ↔
      parsed.identities = readBack runtime file ∧
        (∀ identity ∈ readBack runtime file, ValidIdentity runtime identity) ∧
        ((readBack runtime file).flatMap keysOf).Nodup ∧
        parseOverrides runtime (file.chromeProfileOverrides.map fun overrides =>
          .arr (overrides.map Json.written)) = .ok parsed.chromeProfileOverrides := by
  obtain ⟨rec, members, version, identities, overrides⟩ := membersOf_saveIdentitiesFile runtime file
  have objects : ∀ others : List Object,
      ((readBack runtime file).map Json.obj).map membersOf = others.map some ↔
        others = readBack runtime file := by
    intro others
    rw [List.map_map]
    show (readBack runtime file).map some = others.map some ↔ _
    rw [(Option.some_injective Object).list_map.eq_iff, eq_comm]
  simp only [parseIdentitiesFile, members, version, identities, overrides, beq_self_eq_true,
    ensure_bind_eq_ok, true_and, Option.bind_some, Json.asArray?]
  simp only [bind_eq_ok, parseIdentities_eq_ok, objects, Except.ok.injEq]
  constructor
  · rintro ⟨_, ⟨rfl, valid, distinct, -⟩, _, accepted, rfl⟩
    exact ⟨rfl, valid, distinct, accepted⟩
  · rintro ⟨same, valid, distinct, accepted⟩
    refine ⟨_, ⟨rfl, valid, distinct, List.disjoint_nil_right _⟩, _, accepted, ?_⟩
    rw [← same]

/-- A file whose identities and overrides pass their own checks is read back after a save exactly
when its names and aliases have no duplicate. -/
theorem exists_parse_saveIdentitiesFile (runtime : Runtime) (file : IdentitiesFile)
    (valid : ∀ identity ∈ file.identities, ValidIdentity runtime identity)
    (validOverrides : ∀ overrides, file.chromeProfileOverrides = some overrides →
      ∀ override ∈ overrides, ValidOverride override) :
    (∃ parsed, parseIdentitiesFile runtime (saveIdentitiesFile runtime file) = .ok parsed) ↔
      (file.identities.flatMap keysOf).Nodup := by
  have keys : (readBack runtime file).flatMap keysOf = file.identities.flatMap keysOf := by
    rw [readBack, List.flatMap_map]
    exact congrArg (file.identities.flatMap ·) (funext (keysOf_saved runtime))
  have validBack : ∀ identity ∈ readBack runtime file, ValidIdentity runtime identity := by
    intro identity member
    obtain ⟨original, present, rfl⟩ := List.mem_map.mp member
    exact (valid original present).saved.written
  have overridesBack : ∃ parsed, parseOverrides runtime (file.chromeProfileOverrides.map
      fun overrides => .arr (overrides.map Json.written)) = .ok parsed := by
    cases given : file.chromeProfileOverrides with
    | none => exact ⟨none, rfl⟩
    | some overrides =>
      refine ⟨some (overrides.map Json.written), ?_⟩
      refine (parseOverrides_eq_ok _ _ _).mpr (Or.inr ⟨_, rfl, rfl, ?_⟩)
      intro override member
      obtain ⟨original, present, rfl⟩ := List.mem_map.mp member
      exact (validOverrides overrides given original present).written
  simp only [parse_saveIdentitiesFile_eq_ok, keys]
  constructor
  · rintro ⟨_, -, -, distinct, -⟩
    exact distinct
  · intro distinct
    obtain ⟨overrides, accepted⟩ := overridesBack
    exact ⟨⟨readBack runtime file, overrides⟩, rfl, validBack, distinct, accepted⟩

/-- A save that is accepted keeps the names. -/
theorem names_of_parse_saveIdentitiesFile (runtime : Runtime) (file parsed : IdentitiesFile)
    (accepted : parseIdentitiesFile runtime (saveIdentitiesFile runtime file) = .ok parsed) :
    parsed.identities.map nameOf = file.identities.map nameOf := by
  rw [((parse_saveIdentitiesFile_eq_ok _ _ _).mp accepted).1, readBack, List.map_map]
  refine List.map_congr_left fun identity _ => ?_
  show nameOf (writtenMembers (savedIdentity runtime identity)) = nameOf identity
  rw [nameOf_writtenMembers, nameOf_savedIdentity]

end AiSwitcher
