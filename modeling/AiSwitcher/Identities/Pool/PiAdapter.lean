/-
This file embeds what Pi supplies to the grant-file adapter, of
`src/identities/pool/pi-adapter.ts` and `token-account.ts`. One file holds the
credentials of every provider. A member's account is its `kimi-coding` entry; the
other entries move only into the member they are known to come from.

Two gaps of the tests here matter later. `hasPoolOnlyContent` passes over an OAuth
entry under a key where the vault has something that is no OAuth entry, and
`newerInto` moves the whole file into a vault without a usable login.
-/

import AiSwitcher.Identities.Pool.GrantFileAdapter

namespace AiSwitcher.Pi

open JavaScript Interleaving Pool GrantFile

/-! ### Accounts -/

structure TokenAccount where
  key : String
  value : String
  deriving DecidableEq

/-- The account of a token that is a JWT carrying one. -/
def tokenAccount (runtime : TokenRuntime) (token : Option Json) : Option TokenAccount := do
  let text ← token.bind Json.asString?
  let claims ← runtime.decodeJwtPayload text
  ["user_id", "sub", "uid"].findSome? fun key =>
    ((claims.get key).bind usableToken).map fun value => ⟨key, value⟩

/-- The account of an access and a refresh token. -/
def pairIdentity (runtime : TokenRuntime) (access refresh : Option Json) : GrantIdentity :=
  let fromAccess := tokenAccount runtime access
  let fromRefresh := tokenAccount runtime refresh
  let hybrid : Bool := match fromAccess, fromRefresh with
    | some first, some second => first.key = second.key ∧ first.value ≠ second.value
    | _, _ => false
  { id := if hybrid then none else (fromAccess.or fromRefresh).map fun account => account.value
    hybrid }

/-! ### Entries -/

def kimiKey : String := "kimi-coding"

/-- The entries that are objects. -/
def objectEntries (grant : Object) : Members Object :=
  grant.entries.filterMap fun entry => entry.2.asObject?.map fun fields => (entry.1, fields)

def isOauth (entry : Object) : Bool :=
  entry.get "type" = some (.str "oauth")

/-- `isOauth` of any value: it reads a member of it. -/
def isOauthValue : Json → Except String Bool
  | .null => .error "Cannot read properties of null (reading 'type')"
  | .obj entry => .ok (isOauth entry)
  | _ => .ok false

/-- The OAuth entry under a key. -/
def oauthEntry (grant : Option Object) (key : String) : Option Object :=
  ((grant.bind fun fields => fields.get key).bind Json.asObject?).filter isOauth

def kimiEntry (grant : Option Object) : Option Object :=
  oauthEntry grant kimiKey

def access (entry : Object) : Option Json :=
  entry.get "access"

def refresh (entry : Object) : Option Json :=
  entry.get "refresh"

/-- `typeof expires === "number"`, with the number. -/
def expires (entry : Object) : Option Number :=
  (entry.get "expires").bind Json.asNumber?

/-- Pi's own rule for one credential. -/
def validEntry (entry : Object) : Bool :=
  if entry.get "type" = some (.str "api_key") then
    match entry.get "key" with
    | none => true
    | some key => key.asString?.isSome
  else
    isOauth entry && ((access entry).bind Json.asString?).isSome &&
      ((refresh entry).bind Json.asString?).isSome && match expires entry with
        | some (.finite _) => true
        | _ => false

/-- The first entry has a later expiry; none counts as -1 for the second. -/
def isNewer (entry than : Object) : Bool :=
  match expires entry with
  | some expiry => Number.lt ((expires than).getD (.finite (-1))) expiry
  | none => false

/-- The same access and refresh token. -/
def sameTokens (first second : Object) : Bool :=
  Json.strictEqual (access first) (access second) && Json.strictEqual (refresh first) (refresh second)

/-! ### Merging -/

/-- A token of the one is a token of the other. -/
def shareTokens (first second : Object) : Bool :=
  Json.strictEqual (access first) (access second) ||
    Json.strictEqual (refresh first) (refresh second) ||
    Json.strictEqual (access first) (refresh second) ||
    Json.strictEqual (refresh first) (access second)

/-- Some other grant has a token of the entry, under the same key. -/
def sharedChain (key : String) (entry : Object) : List Object → Except String Bool
  | [] => .ok false
  | grant :: others =>
    match grant.get key with
    | none => sharedChain key entry others
    | some (.obj theirs) =>
      if isOauth theirs && shareTokens theirs entry then .ok true
      else sharedChain key entry others
    | some value => do
      let _ ← isOauthValue value
      sharedChain key entry others

/-- The account an entry claims. -/
def claimedAccount (runtime : TokenRuntime) (entry : Object) : Option TokenAccount :=
  (tokenAccount runtime (access entry)).or (tokenAccount runtime (refresh entry))

/-- The entry claims an account that is not the one the member's own entry claims. -/
def foreignClaim (runtime : TokenRuntime) (own entry : Object) : Bool :=
  match claimedAccount runtime entry with
  | none => false
  | some theirs => claimedAccount runtime own ≠ some theirs

/-- A merge under way. -/
structure Merging where
  next : Object
  backup : Object
  changed : Bool

/-- The entry goes into the vault over the member's own. -/
def Merging.move (merging : Merging) (key : String) (own entry : Object) : Merging :=
  { merging with next := merging.next.set key (.obj (own.spread entry)), changed := true }

/-- One entry of the pool is merged. -/
def mergeEntry (runtime : TokenRuntime) (owner : Object) (mode : WriteBackMode)
    (others : List Object) (merging : Merging) (key : String) (entry : Object) :
    Except String Merging :=
  if mode = .capture ∧ key ≠ kimiKey then .ok merging
  else
    match oauthEntry (some owner) key with
    | none => .ok merging
    | some own =>
      if ¬ isOauth entry ∨ ¬ isNewer entry own ∨ sameTokens entry own then .ok merging
      else if key = kimiKey then .ok (merging.move key own entry)
      else do
        let shared ← sharedChain key entry others
        if foreignClaim runtime own entry ∨ shared then
          return { merging with backup := merging.backup.set ("skipped:" ++ key) (.obj entry) }
        else
          return ({ merging with
            backup := merging.backup.set ("replaced:" ++ key) (.obj own) }).move key own entry

def mergeEntries (runtime : TokenRuntime) (owner : Object) (mode : WriteBackMode)
    (others : List Object) : Merging → Members Object → Except String Merging
  | merging, [] => .ok merging
  | merging, (key, entry) :: rest => do
    let merged ← mergeEntry runtime owner mode others merging key entry
    mergeEntries runtime owner mode others merged rest

def newerInto (runtime : TokenRuntime) (owner : Option Object) (pool : Object)
    (mode : WriteBackMode) (others : List Object) : Except String (Option GrantMerge) :=
  match owner with
  | none => .ok (some { next := some pool, backup := none })
  | some owner => do
    let merged ← mergeEntries runtime owner mode others ⟨owner, [], false⟩ (objectEntries pool)
    if ¬ merged.changed ∧ merged.backup = [] then return none
    else return some {
      next := if merged.changed then some merged.next else none
      backup := if merged.backup = [] then none else some merged.backup }

/-! ### Content of the pool alone -/

/-- One entry of the pool is lacking in the vault. -/
def isPoolOnly (vault : Option Object) (key : String) (entry : Object) : Except String Bool :=
  match vault.bind fun fields => fields.get key with
  | none => .ok true
  | some value =>
    if ¬ isOauth entry then .ok (value.written ≠ (Json.obj entry).written)
    else if key = kimiKey then .ok false
    else do
      let oauth ← isOauthValue value
      match value with
      | .obj own => return oauth && isNewer entry own && !sameTokens entry own
      | _ => return false

def anyPoolOnly (vault : Option Object) : Members Object → Except String Bool
  | [] => .ok false
  | (key, entry) :: rest => do
    let lacking ← isPoolOnly vault key entry
    if lacking then return true else anyPoolOnly vault rest

def hasPoolOnlyContent (pool : Object) (vault : Option Object) : Except String Bool :=
  anyPoolOnly vault (objectEntries pool)

/-! ### The adapter -/

/-- A key's text before `sort` compares it: `String([key, access, refresh])`. -/
def sortKey (runtime : TokenRuntime) (entry : String × Object) : String :=
  entry.1 ++ "," ++ text (access entry.2) ++ "," ++ text (refresh entry.2)
where
  text : Option Json → String
    | none => ""
    | some .null => ""
    | some value => runtime.textOf value

/-- `[key, access, refresh]`, as `JSON.stringify` writes it. -/
def tokensKey (entry : String × Object) : Json :=
  (Json.arr [.str entry.1, (access entry.2).getD .null, (refresh entry.2).getD .null]).written

/-- The OAuth entries in the order of `sort`. -/
def sortedOauth (runtime : TokenRuntime) (grant : Object) : Members Object :=
  ((objectEntries grant).filter fun entry => isOauth entry.2).insertionSort
    fun first second => sortKey runtime first ≤ sortKey runtime second

def fingerprint (runtime : TokenRuntime) (grant : Object) : Json :=
  .arr ((sortedOauth runtime grant).map tokensKey)

def nonEmpty : Option Json → Bool
  | some (.str text) => text ≠ ""
  | _ => false

def piSpec (runtime : TokenRuntime) : GrantFileSpec where
  label := "Pi"
  loginHint := "run \"pi\" and /login to Kimi under that identity"
  relPath := "auth.json"
  usable grant := nonEmpty ((kimiEntry grant).bind access)
  identity grant := pairIdentity runtime ((kimiEntry grant).bind access)
    ((kimiEntry grant).bind refresh)
  complete grant := match grant with
    | none => false
    | some fields => fields.entries.all fun entry => entry.2.asObject?.any validEntry
  fingerprint := fingerprint runtime
  newerInto := newerInto runtime
  hasPoolOnlyContent := some hasPoolOnlyContent

end AiSwitcher.Pi
