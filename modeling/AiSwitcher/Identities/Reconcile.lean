/-
This file embeds how two copies of one OAuth grant are reconciled, `reconcilePair` of
`src/identities/oauth-reconcile.ts`: the readers and writers of the native stores of
Claude, Codex and Grok and of Pi's `auth.json`, the comparison of two copies, and the
rewriting of the staler store.

Two facts decide what a reconcile achieves. A copy's time is its mint time or else its
expiry, so the mint time of one copy may be compared with the expiry of the other. And
a grant without a refresh token leaves the refresh token of the store it is written
into, which then holds the access token of one grant with the refresh token of another.
-/

import AiSwitcher.Identities.OauthRefresh
import Mathlib.Data.Rat.Floor

namespace AiSwitcher.Reconcile

open JavaScript

/-! ### Stores -/

/-- What reconciling takes from the runtime besides: `new Date(seconds * 1000).toISOString()`,
which throws a `RangeError` for what is no date. -/
structure ReconcileRuntime extends TokenRuntime where
  toIsoString : Number → Except String String

/-- The providers that `reconcileNativeProviderStores` pairs. -/
inductive Provider where
  | anthropic
  | openaiCodex
  | xai
  deriving DecidableEq

/-- The provider's key in Pi's `auth.json`. -/
def Provider.key : Provider → String
  | .anthropic => "anthropic"
  | .openaiCodex => "openai-codex"
  | .xai => "xai"

/-- The native store and Pi's `auth.json`; `none` for a file that cannot be read. -/
structure Stores where
  native : Option FileText
  pi : Option FileText
  deriving DecidableEq

structure Pairing where
  provider : Provider
  nativePath : String
  piPath : String

structure StoreCopy where
  path : String
  grant : OAuthGrant
  /-- The entry of Grok's map that the copy was read from. -/
  entryKey : Option String
  deriving DecidableEq

/-! ### Reading -/

structure JwtTimestamps where
  iat : Option Number
  exp : Option Number

def jwtTimestamps (runtime : TokenRuntime) (token : String) : JwtTimestamps :=
  let claims := runtime.decodeJwtPayload token
  { iat := (claims.bind fun claims => claims.get "iat").bind Json.asNumber?
    exp := (claims.bind fun claims => claims.get "exp").bind Json.asNumber? }

/-- `Date.parse(text) / 1000`, `none` for `NaN`. -/
def dateSeconds (runtime : TokenRuntime) (text : String) : Option Number :=
  (runtime.dateParse text).map fun milliseconds => .finite (milliseconds / 1000)

/-- The grant in an entry of Pi's `auth.json`. -/
def piGrant (runtime : TokenRuntime) (entry : Object) : Option OAuthGrant := do
  let accessToken ← (entry.get "access").bind usableToken
  return {
    accessToken
    refreshToken := (entry.get "refresh").bind usableToken
    expiresAt := ((entry.get "expires").bind Json.asNumber?).map secondsFromMs
    mintedAt := (jwtTimestamps runtime accessToken).iat }

def readPiEntry (runtime : TokenRuntime) (provider : Provider) (path : String)
    (text : Option FileText) : Option StoreCopy := do
  let raw ← parseObject text
  let entry ← ((raw.get provider.key).bind Json.asObject?).filter fun entry =>
    entry.get "type" = some (.str "oauth")
  let grant ← piGrant runtime entry
  return { path, grant, entryKey := none }

/-- The grant in the tokens of a Codex file. -/
def codexGrant (runtime : TokenRuntime) (raw tokens : Object) : Option OAuthGrant := do
  let accessToken ← (tokens.get "access_token").bind usableToken
  let jwt := jwtTimestamps runtime accessToken
  let lastRefresh := ((raw.get "last_refresh").bind Json.asString?).bind (dateSeconds runtime)
  return {
    accessToken
    refreshToken := (tokens.get "refresh_token").bind usableToken
    expiresAt := jwt.exp
    mintedAt := jwt.iat.or lastRefresh }

def readNativeCodex (runtime : TokenRuntime) (path : String) (text : Option FileText) :
    Option StoreCopy := do
  let raw ← parseObject text
  let tokens ← (raw.get "tokens").bind Json.asObject?
  let grant ← codexGrant runtime raw tokens
  return { path, grant, entryKey := none }

/-- The expiry of a Grok entry in seconds, `none` for `NaN`; `otherwise` where the entry has
neither a number nor a text. -/
def grokExpiry (runtime : TokenRuntime) (otherwise : Option Number) (entry : Object) :
    Option Number :=
  match entry.get "expires_at" with
  | some (.num value) => some (secondsFromMs value)
  | some (.str text) => dateSeconds runtime text
  | _ => otherwise

/-- The fingerprint an entry of Grok's map is matched by. -/
def entryFingerprint (runtime : TokenRuntime) (entry : Object) (refreshToken : String) : String :=
  let accessToken := match entry.get "key" with
    | none | some .null => ""
    | some value => runtime.textOf value
  grantFingerprint runtime ⟨accessToken, some refreshToken, none, none⟩

/-- `left > right`, false when one of them is `NaN`. -/
def isAbove : Option Number → Option Number → Bool
  | some left, some right => right.lt left
  | _, _ => false

/-- An entry with a refresh token, and the token; the others are passed over. -/
def grokEntry (value : Json) : Option (Object × String) := do
  let entry ← value.asObject?
  let refreshToken ← (entry.get "refresh_token").bind usableToken
  return (entry, refreshToken)

/-- The entries that are left, and the freshest entry so far with its expiry. -/
def grokEntryKey (runtime : TokenRuntime) (matchFingerprint : Option String) :
    Members Json → Option (String × Option Number) → Option String
  | [], freshest => freshest.map Prod.fst
  | (key, value) :: rest, freshest =>
    match grokEntry value with
    | none => grokEntryKey runtime matchFingerprint rest freshest
    | some (entry, refreshToken) =>
      if matchFingerprint = some (entryFingerprint runtime entry refreshToken) then some key
      else
        let expiry := grokExpiry runtime (some (.finite (-1))) entry
        grokEntryKey runtime matchFingerprint rest
          (if freshest.all fun best => isAbove expiry best.2 then some (key, expiry) else freshest)

/-- The grant in a Grok entry. -/
def grokGrant (runtime : TokenRuntime) (entry : Object) : Option OAuthGrant := do
  let accessToken ← (entry.get "key").bind usableToken
  return {
    accessToken
    refreshToken := (entry.get "refresh_token").bind usableToken
    expiresAt := (grokExpiry runtime none entry).filter fun expiry =>
      match expiry with
      | .finite _ => true
      | .infinite _ => false
    mintedAt := (jwtTimestamps runtime accessToken).iat }

def readNativeGrok (runtime : TokenRuntime) (path : String) (matchFingerprint : Option String)
    (text : Option FileText) : Option StoreCopy := do
  let raw ← parseObject text
  let key ← grokEntryKey runtime matchFingerprint raw.entries none
  let entry ← (raw.get key).bind Json.asObject?
  let grant ← grokGrant runtime entry
  return { path, grant, entryKey := some key }

/-! ### Writing -/

/-- `...(token ? { [key]: token } : {})` -/
def tokenMember (key : String) : Option String → Object
  | some token => if token = "" then [] else [(key, .str token)]
  | none => []

/-- `...(time !== undefined ? { [key]: time } : {})` -/
def timeMember (key : String) : Option Number → Object
  | some time => [(key, .num time)]
  | none => []

def piEntry (raw : Object) (provider : Provider) (grant : OAuthGrant) : Object :=
  let entry : Object := ((raw.get provider.key).bind Json.asObject?).getD []
  raw.set provider.key (.obj ((((entry.set "type" (.str "oauth")).set "access"
    (.str grant.accessToken)).spread (tokenMember "refresh" grant.refreshToken)).spread
      (timeMember "expires" (grant.expiresAt.map milliseconds))))

def nativeCodex (runtime : ReconcileRuntime) (raw : Object) (grant : OAuthGrant) :
    Except String Object := do
  let tokens : Object := ((raw.get "tokens").bind Json.asObject?).getD []
  let rewritten := raw.set "tokens" (.obj ((tokens.set "access_token"
    (.str grant.accessToken)).spread (tokenMember "refresh_token" grant.refreshToken)))
  match grant.mintedAt with
  | some mintedAt => do
    let lastRefresh ← runtime.toIsoString mintedAt
    return rewritten.set "last_refresh" (.str lastRefresh)
  | none => return rewritten

/-- The expiry in the form the entry has it in. -/
def grokExpiryMember (runtime : ReconcileRuntime) (entry : Object) :
    Option Number → Except String Object
  | some expiry => do
    match (entry.get "expires_at").bind Json.asString? with
    | some _ => return [("expires_at", .str (← runtime.toIsoString expiry))]
    | none => return [("expires_at", .num expiry)]
  | none => return []

def nativeGrok (runtime : ReconcileRuntime) (raw : Object) (entryKey : String)
    (grant : OAuthGrant) : Except String Object := do
  let entry : Object := ((raw.get entryKey).bind Json.asObject?).getD []
  let expiry ← grokExpiryMember runtime entry grant.expiresAt
  return raw.set entryKey (.obj (((entry.set "key" (.str grant.accessToken)).spread
    (tokenMember "refresh_token" grant.refreshToken)).spread expiry))

/-! ### The pairing of a provider -/

def readPi (runtime : TokenRuntime) (pairing : Pairing) (stores : Stores) : Option StoreCopy :=
  readPiEntry runtime pairing.provider pairing.piPath stores.pi

/-- Grok's entry is the one with the fingerprint of Pi's copy. -/
def readNative (runtime : TokenRuntime) (pairing : Pairing) (stores : Stores) :
    Option StoreCopy :=
  match pairing.provider with
  | .anthropic => (readNativeAnthropic stores.native).map fun grant =>
      { path := pairing.nativePath, grant, entryKey := none }
  | .openaiCodex => readNativeCodex runtime pairing.nativePath stores.native
  | .xai =>
    let xaiFingerprint := (readPi runtime pairing stores).map fun copy =>
      grantFingerprint runtime copy.grant
    readNativeGrok runtime pairing.nativePath xaiFingerprint stores.native

def writePi (pairing : Pairing) (grant : OAuthGrant) (stores : Stores) : Stores :=
  { stores with
    pi := some (stringify (piEntry ((parseObject stores.pi).getD []) pairing.provider grant)) }

/-- What the native file is rewritten to. -/
def nativeRewritten (runtime : ReconcileRuntime) (pairing : Pairing) (native : StoreCopy)
    (grant : OAuthGrant) (text : Option FileText) : Except String Object :=
  let raw := parseObject text
  match pairing.provider with
  | .anthropic => return nativeAnthropic (raw.getD []) grant
  | .openaiCodex =>
    if raw.isNone ∧ text.isSome then
      .error (native.path ++ " is present but unparsable; refusing to rewrite it")
    else nativeCodex runtime (raw.getD []) grant
  | .xai =>
    match native.entryKey with
    | none => .error "no matching grok account entry to rewrite"
    | some entryKey => nativeGrok runtime (raw.getD []) entryKey grant

def writeNative (runtime : ReconcileRuntime) (pairing : Pairing) (native : StoreCopy)
    (grant : OAuthGrant) (stores : Stores) : Except String Stores := do
  let rewritten ← nativeRewritten runtime pairing native grant stores.native
  return { stores with native := some (stringify rewritten) }

/-! ### Comparing two copies -/

inductive Side where
  | native
  | pi
  deriving DecidableEq

inductive ReconcileStatus where
  | inSync
  | forked
  | singleCopy
  | unreadable
  | rewroteNative
  | rewrotePi
  | failed
  deriving DecidableEq

/-- The status of a heal by this side's copy. -/
def Side.rewroteOther : Side → ReconcileStatus
  | .native => .rewrotePi
  | .pi => .rewroteNative

structure OAuthReconcileEntry where
  provider : Provider
  nativePath : Option String
  piPath : Option String
  nativeFingerprint : Option String
  piFingerprint : Option String
  /-- The inner `none` is `NaN`. -/
  divergenceMinutes : Option (Option Number)
  status : ReconcileStatus
  adoptedFrom : Option Side
  detail : Option String
  deriving DecidableEq

/-- `Math.round((seconds / 60) * 10) / 10` of the seconds between two times, `none` for `NaN`. -/
def minutesApart : Number → Number → Option Number
  | .finite newest, .finite oldest =>
      some (.finite (⌊(newest - oldest) / 60 * 10 + 1 / 2⌋ / 10))
  | .infinite negative, .finite _ => some (.infinite negative)
  | .finite _, .infinite negative => some (.infinite !negative)
  | .infinite newest, .infinite oldest => if newest = oldest then none else some (.infinite newest)

/-- `recency(a) >= recency(b)` -/
def isFresher (a b : OAuthGrant) : Bool :=
  !(grantRecency a).lt (grantRecency b)

def minutesBetween (a b : OAuthGrant) : Option (Option Number) := do
  let fresher := if isFresher a b then a else b
  let staler := if isFresher a b then b else a
  let newest ← fresher.mintedAt.or fresher.expiresAt
  let oldest ← staler.mintedAt.or staler.expiresAt
  return minutesApart newest oldest

/-- The side whose copy is kept. -/
def freshSide (native pi : OAuthGrant) : Side :=
  if isFresher native pi then .native else .pi

/-- Write a side's copy into the other store. -/
def rewriteOther (runtime : ReconcileRuntime) (pairing : Pairing) (native pi : StoreCopy)
    (stores : Stores) : Side → Except String Stores
  | .native => .ok (writePi pairing native.grant stores)
  | .pi => writeNative runtime pairing native pi.grant stores

/-- Write the fresher copy into the other store. -/
def rewriteStaler (runtime : ReconcileRuntime) (pairing : Pairing) (ioError : Option String)
    (native pi : StoreCopy) (stores : Stores) : Except String Stores := do
  let rewritten ← rewriteOther runtime pairing native pi stores (freshSide native.grant pi.grant)
  match ioError with
  | some message => .error message
  | none => return rewritten

/-- `reconcilePair`; `ioError` is the message of the file system where it refuses a rewrite. -/
def reconcilePair (runtime : ReconcileRuntime) (pairing : Pairing) (write : Bool)
    (ioError : Option String) (stores : Stores) : OAuthReconcileEntry × Stores :=
  let native := readNative runtime.toTokenRuntime pairing stores
  let pi := readPi runtime.toTokenRuntime pairing stores
  let nativeFingerprint := native.map fun copy =>
    grantFingerprint runtime.toTokenRuntime copy.grant
  let piFingerprint := pi.map fun copy => grantFingerprint runtime.toTokenRuntime copy.grant
  let entry : OAuthReconcileEntry := {
    provider := pairing.provider
    nativePath := native.map StoreCopy.path
    piPath := pi.map StoreCopy.path
    nativeFingerprint
    piFingerprint
    divergenceMinutes := none
    status := .unreadable
    adoptedFrom := none
    detail := none }
  match native, pi with
  | none, none => ({ entry with detail := some "no copy in either store" }, stores)
  | some _, none => ({ entry with
      status := .singleCopy
      detail := some "only the native store holds a copy; nothing to reconcile" }, stores)
  | none, some _ => ({ entry with
      status := .singleCopy
      detail := some "only the pi store holds a copy; nothing to reconcile" }, stores)
  | some native, some pi =>
    let entry := { entry with divergenceMinutes := minutesBetween native.grant pi.grant }
    if nativeFingerprint = piFingerprint then ({ entry with status := .inSync }, stores)
    else
      let fresh := freshSide native.grant pi.grant
      let entry := { entry with status := .forked, adoptedFrom := some fresh }
      if ¬ write then (entry, stores)
      else
        match rewriteStaler runtime pairing ioError native pi stores with
        | .ok rewritten =>
          ({ entry with status := fresh.rewroteOther }, rewritten)
        | .error message => ({ entry with status := .failed, detail := some message }, stores)

/-! ### Which copy is kept -/

/-- The expiry, with `recency`'s value for a copy that has no time. -/
def expiryTime (grant : OAuthGrant) : Number :=
  grant.expiresAt.getD (.finite (-1))

/-- The documented order: by the mint times when both copies have one, else by the expiries. -/
def IsLater (first second : OAuthGrant) : Prop :=
  match first.mintedAt, second.mintedAt with
  | some minted, some other => other.lt minted = true
  | _, _ => (expiryTime second).lt (expiryTime first) = true

/-- Just one of the copies has a mint time, and the other's expiry lies between that time and the
expiry that goes with it. The first copy is kept when the two times are the same. -/
def ExpiryBetween (first second : OAuthGrant) : Prop :=
  match first.mintedAt, second.mintedAt with
  | some minted, none =>
      minted.lt (expiryTime second) = true ∧ (expiryTime second).lt (expiryTime first) = true ∨
        (expiryTime first).lt (expiryTime second) = true ∧ minted.lt (expiryTime second) = false
  | none, some minted =>
      (expiryTime first).lt minted = false ∧ (expiryTime first).lt (expiryTime second) = true ∨
        (expiryTime second).lt (expiryTime first) = true ∧ (expiryTime first).lt minted = true
  | _, _ => False

/-- The first of two copies is kept unless the second is more recent. -/
def keptOf (first second : OAuthGrant) : OAuthGrant :=
  if isFresher first second then first else second

theorem freshest_two (first second : OAuthGrant) :
    freshest [some first, some second] = some (keptOf first second) := by
  unfold freshest keptOf isFresher
  dsimp only [List.foldl_cons, List.foldl_nil]
  cases Number.lt (grantRecency first) (grantRecency second) <;> rfl

theorem not_isLater_self (grant : OAuthGrant) : ¬ IsLater grant grant := by
  unfold IsLater
  cases grant.mintedAt <;> simp [Number.lt_irrefl]

/-- Neither copy is later than the kept one, unless an expiry lies between. -/
theorem keptOf_isLatest_iff (first second : OAuthGrant) :
    (¬ IsLater first (keptOf first second) ∧ ¬ IsLater second (keptOf first second)) ↔
      ¬ ExpiryBetween first second := by
  have same := not_isLater_self
  have asymm : ∀ left right : Number, left.lt right = true → right.lt left = false :=
    fun _ _ => Number.lt_asymm
  unfold keptOf isFresher
  cases kept : Number.lt (grantRecency first) (grantRecency second) with
  | false =>
    simp only [Bool.not_false, if_true, same, not_false_eq_true, true_and]
    unfold IsLater ExpiryBetween
    cases minted : first.mintedAt <;> cases other : second.mintedAt <;>
      simp_all [grantRecency, expiryTime]
  | true =>
    simp only [Bool.not_true, Bool.false_eq_true, if_false, same, not_false_eq_true, and_true]
    unfold IsLater ExpiryBetween
    cases minted : first.mintedAt <;> cases other : second.mintedAt <;>
      simp_all [grantRecency, expiryTime]

theorem filterMap_of_freshest_eq_none {copies : List (Option OAuthGrant)}
    (none : freshest copies = none) : copies.filterMap id = [] := by
  induction copies using List.reverseRecOn with
  | nil => rfl
  | append_singleton copies last inductionHypothesis =>
    rw [freshest, List.foldl_append, ← freshest] at none
    dsimp only [List.foldl_cons, List.foldl_nil] at none
    cases last with
    | none => rw [List.filterMap_append, inductionHypothesis none]; rfl
    | some grant =>
      cases best : freshest copies with
      | none => rw [best] at none; cases none
      | some old =>
        rw [best] at none
        dsimp only at none
        split_ifs at none

/-- Where the freshest of several copies stands: it is more recent than every copy before it, and no
copy behind it is more recent. -/
theorem freshest_split {copies : List (Option OAuthGrant)} {kept : OAuthGrant}
    (found : freshest copies = some kept) :
    ∃ before after, copies.filterMap id = before ++ kept :: after ∧
      (∀ copy ∈ before, isFresher copy kept = false) ∧
        ∀ copy ∈ after, isFresher kept copy = true := by
  induction copies using List.reverseRecOn generalizing kept with
  | nil => cases found
  | append_singleton copies last inductionHypothesis =>
    rw [freshest, List.foldl_append, ← freshest] at found
    dsimp only [List.foldl_cons, List.foldl_nil] at found
    rw [List.filterMap_append]
    cases last with
    | none =>
      obtain ⟨before, after, split, below, above⟩ := inductionHypothesis found
      exact ⟨before, after, by rw [split]; simp, below, above⟩
    | some grant =>
      cases best : freshest copies with
      | none =>
        rw [best] at found
        cases found
        have empty := filterMap_of_freshest_eq_none best
        exact ⟨[], [], by rw [empty]; rfl, by simp, by simp⟩
      | some old =>
        rw [best] at found
        dsimp only at found
        obtain ⟨before, after, split, below, above⟩ := inductionHypothesis best
        unfold isFresher at below above ⊢
        split_ifs at found with newer
        · cases found
          refine ⟨copies.filterMap id, [], rfl, fun copy member => ?_, by simp⟩
          rw [split] at member
          have notNewer : (grantRecency old).lt (grantRecency copy) = false := by
            rcases List.mem_append.mp member with isBefore | isBehind
            · have older := below copy isBefore
              rw [Bool.not_eq_false'] at older
              exact Number.lt_asymm older
            · rcases List.mem_cons.mp isBehind with same | isAfter
              · rw [same, Number.lt_irrefl]
              · simpa using above copy isAfter
          rw [Number.lt_of_not_lt_of_lt notNewer newer]
          rfl
        · cases found
          refine ⟨before, after ++ [grant], by rw [split]; simp, below, fun copy member => ?_⟩
          rcases List.mem_append.mp member with old | last
          · exact above copy old
          · cases List.mem_singleton.mp last
            simp [newer]

/-- Among several copies no two of which have an expiry between, the freshest is the latest. -/
theorem freshest_isLatest {copies : List (Option OAuthGrant)}
    (comparable : (copies.filterMap id).Pairwise fun first second => ¬ ExpiryBetween first second)
    {kept : OAuthGrant} (found : freshest copies = some kept) {copy : OAuthGrant}
    (member : some copy ∈ copies) : ¬ IsLater copy kept := by
  obtain ⟨before, after, split, below, above⟩ := freshest_split found
  have isCopy : copy ∈ before ++ kept :: after :=
    split ▸ List.mem_filterMap.mpr ⟨some copy, member, rfl⟩
  rw [split, List.pairwise_append] at comparable
  obtain ⟨-, behind, across⟩ := comparable
  rcases List.mem_append.mp isCopy with isBefore | isBehind
  · have pair := (keptOf_isLatest_iff copy kept).mpr (across copy isBefore kept List.mem_cons_self)
    rw [keptOf, below copy isBefore] at pair
    exact pair.1
  · rcases List.mem_cons.mp isBehind with same | isAfter
    · subst same
      exact not_isLater_self copy
    · have pair := (keptOf_isLatest_iff kept copy).mpr (List.rel_of_pairwise_cons behind isAfter)
      rw [keptOf, above copy isAfter] at pair
      exact pair.2

/-! ### What a reconcile decides -/

section Pair

variable {runtime : ReconcileRuntime} {pairing : Pairing} {stores : Stores} {native pi : StoreCopy}

/-- Both stores hold a copy, and the copies are of different grants. -/
structure Diverged (runtime : TokenRuntime) (pairing : Pairing) (stores : Stores)
    (native pi : StoreCopy) : Prop where
  readNative : readNative runtime pairing stores = some native
  readPi : readPi runtime pairing stores = some pi
  different : grantFingerprint runtime native.grant ≠ grantFingerprint runtime pi.grant

def Side.copy (native pi : StoreCopy) : Side → StoreCopy
  | .native => native
  | .pi => pi

theorem copy_freshSide (native pi : StoreCopy) :
    ((freshSide native.grant pi.grant).copy native pi).grant = keptOf native.grant pi.grant := by
  unfold freshSide keptOf
  split <;> rfl

theorem adoptedFrom_reconcilePair
    (diverged : Diverged runtime.toTokenRuntime pairing stores native pi) (write : Bool)
    (ioError : Option String) :
    (reconcilePair runtime pairing write ioError stores).1.adoptedFrom =
      some (freshSide native.grant pi.grant) := by
  unfold reconcilePair
  rw [diverged.readNative, diverged.readPi]
  dsimp only [Option.map_some]
  rw [if_neg fun same => diverged.different (Option.some.inj same)]
  by_cases dry : ¬ write
  · rw [if_pos dry]
  · rw [if_neg dry]
    cases rewriteStaler runtime pairing ioError native pi stores <;> rfl

end Pair

/-- A reconcile and the refresh keep the same one of two copies, and no copy is later than it by the
documented order, just when no expiry lies between. Of more copies the refresh keeps a latest one
when no expiry lies between any two. -/
theorem reconcilePair_keepsLatest_iff (runtime : ReconcileRuntime) (pairing : Pairing)
    (write : Bool) (ioError : Option String) (stores : Stores) (native pi : StoreCopy)
    (diverged : Diverged runtime.toTokenRuntime pairing stores native pi) :
    ((∃ kept, (reconcilePair runtime pairing write ioError stores).1.adoptedFrom.map
          (fun side => (side.copy native pi).grant) = some kept ∧
        freshest [some native.grant, some pi.grant] = some kept ∧
        ¬ IsLater native.grant kept ∧ ¬ IsLater pi.grant kept) ↔
      ¬ ExpiryBetween native.grant pi.grant) ∧
    ∀ copies : List (Option OAuthGrant),
      (copies.filterMap id).Pairwise (fun first second => ¬ ExpiryBetween first second) →
      ∀ kept, freshest copies = some kept → ∀ copy, some copy ∈ copies → ¬ IsLater copy kept := by
  refine ⟨?_, fun copies comparable kept found copy member =>
    freshest_isLatest comparable found member⟩
  rw [adoptedFrom_reconcilePair diverged, Option.map_some, copy_freshSide, freshest_two,
    ← keptOf_isLatest_iff]
  constructor
  · rintro ⟨kept, isKept, -, latest⟩
    cases isKept
    exact latest
  · exact fun latest => ⟨_, rfl, rfl, latest⟩

/-! ### A Grok pair of which one access token is a JWT -/

namespace Grok

def runtime : ReconcileRuntime where
  decodeJwtPayload := fun token =>
    if token = "jwt" then some [("iat", .num (.finite 1000))] else none
  digest := id
  dateParse := fun _ => none
  textOf := fun _ => ""
  toIsoString := fun _ => .error "Invalid Date"

def pairing : Pairing := ⟨.xai, "/home/u/.grok/auth.json", "/home/u/.pi/auth.json"⟩

/-- The native copy expires at 3000; Pi's was minted at 1000 and expires at 5000. -/
def stores : Stores where
  native := some (.json (.obj [("account", .obj [("key", .str "opaque"),
    ("refresh_token", .str "old"), ("expires_at", .num (.finite 3000))])]))
  pi := some (.json (.obj [("xai", .obj [("type", .str "oauth"), ("access", .str "jwt"),
    ("refresh", .str "new"), ("expires", .num (.finite 5000))])]))

def native : StoreCopy :=
  ⟨"/home/u/.grok/auth.json", ⟨"opaque", some "old", some (.finite 3000), none⟩, some "account"⟩

def pi : StoreCopy :=
  ⟨"/home/u/.pi/auth.json", ⟨"jwt", some "new", some (.finite 5000), some (.finite 1000)⟩, none⟩

theorem diverged : Diverged runtime.toTokenRuntime pairing stores native pi :=
  ⟨by decide +kernel, by decide +kernel, by decide +kernel⟩

end Grok

theorem reconcilePair_keepsLatest_iff_grok : ExpiryBetween Grok.native.grant Grok.pi.grant ∧
    ¬ ∃ kept, (reconcilePair Grok.runtime Grok.pairing true none Grok.stores).1.adoptedFrom.map
          (fun side => (side.copy Grok.native Grok.pi).grant) = some kept ∧
        freshest [some Grok.native.grant, some Grok.pi.grant] = some kept ∧
        ¬ IsLater Grok.native.grant kept ∧ ¬ IsLater Grok.pi.grant kept := by
  have between : ExpiryBetween Grok.native.grant Grok.pi.grant := .inl ⟨by decide, by decide⟩
  refine ⟨between, fun keepsLatest => ?_⟩
  exact (reconcilePair_keepsLatest_iff Grok.runtime Grok.pairing true none Grok.stores Grok.native
    Grok.pi Grok.diverged).1.mp keepsLatest between

/-- The native copy replaces Pi's, which expires later. -/
theorem reconcilePair_replacesLater :
    Diverged Grok.runtime.toTokenRuntime Grok.pairing Grok.stores Grok.native Grok.pi ∧
      (reconcilePair Grok.runtime Grok.pairing true none Grok.stores).1.status = .rewrotePi ∧
      freshest [some Grok.native.grant, some Grok.pi.grant] = some Grok.native.grant ∧
      IsLater Grok.pi.grant Grok.native.grant :=
  ⟨Grok.diverged, by decide +kernel, by decide +kernel,
    show Number.lt (.finite 3000) (.finite 5000) = true by decide⟩

end AiSwitcher.Reconcile
