/-
This file has what the swap pool adapters share, of `src/identities/pool/adapter.ts`
and `types.ts`: a pool and its members, the outcome of a write-back, the result of a
swap; and how credential files and the tokens in them are read.

A credential file is text. The programs copy it as a whole or read the JSON in it,
and nothing they decide depends on how a value is spelt, so a text is kept as the
value it parses to, or as it is when it is not JSON.
-/

import AiSwitcher.Library.Json
import AiSwitcher.Library.Text
import Mathlib.Data.List.Sort

namespace AiSwitcher

open JavaScript

/-! ### Texts -/

/-- The text of a file, as its readers see it. -/
inductive FileText where
  | json (value : Json)
  | other (text : String)
  deriving DecidableEq

/-- The object a text is, when it is one. -/
def parseObject (text : Option FileText) : Option Object :=
  match text with
  | some (.json value) => value.asObject?
  | _ => none

/-- `${JSON.stringify(value, null, 2)}\n` -/
def stringify (object : Object) : FileText :=
  .json (Json.obj object).written

/-- A written file, as its readers see it. -/
theorem parseObject_stringify (object : Object) :
    parseObject (some (stringify object)) = some (writtenMembers object) := by
  show (Json.obj object).written.asObject? = _
  rw [Json.written_obj]
  rfl

/-- `usableToken`: a string that is not blank. -/
def usableToken : Json → Option String
  | .str value => if trim value = "" then none else some value
  | _ => none

/-! ### Pools and members -/

/-- An identity, as far as swaps read it; `configDir` is resolved. -/
structure Identity where
  name : String
  configDir : String
  deriving DecidableEq

/-- An identity that is a swap pool, with its recorded active account. -/
structure PoolIdentity extends Identity where
  active : Option String

inductive WriteBackOutcome where
  | written
  | noneNoLiveCredentials
  | noneIdentical
  | noneMemberNewer
  | noneUnknownOwner
  | noneAccountMismatch
  deriving DecidableEq

def WriteBackOutcome.text : WriteBackOutcome → String
  | .written => "written"
  | .noneNoLiveCredentials => "none-no-live-credentials"
  | .noneIdentical => "none-identical"
  | .noneMemberNewer => "none-member-newer"
  | .noneUnknownOwner => "none-unknown-owner"
  | .noneAccountMismatch => "none-account-mismatch"

/-- `Omit<SwapResult, "reason">` -/
structure SwapResult where
  pool : String
  fromName : Option String
  toName : String
  noop : Bool
  writeBack : WriteBackOutcome
  notes : List String
  deriving DecidableEq

/-- `activeName ? members.find((m) => m.name === activeName) : undefined` -/
def activeMember (members : List Identity) (activeName : Option String) : Option Identity :=
  match activeName with
  | some name => if name = "" then none else members.find? fun member => member.name == name
  | none => none

theorem mem_of_activeMember {members : List Identity} {activeName : Option String}
    {active : Identity} (found : activeMember members activeName = some active) :
    active ∈ members := by
  cases activeName with
  | none => cases found
  | some name =>
    unfold activeMember at found
    dsimp only at found
    split_ifs at found
    exact List.mem_of_find?_eq_some found

theorem activeName_of_activeMember {members : List Identity} {activeName : Option String}
    {active : Identity} (found : activeMember members activeName = some active) :
    activeName = some active.name := by
  cases activeName with
  | none => cases found
  | some name =>
    unfold activeMember at found
    dsimp only at found
    split_ifs at found
    have named := List.find?_some found
    rw [eq_of_beq named]

/-- The one order in which several `.oauth_refresh.lock` are taken. -/
def lockOrder (dirs : List String) : List String :=
  dirs.eraseDups.insertionSort fun first second =>
    first ++ "/.oauth_refresh.lock" ≤ second ++ "/.oauth_refresh.lock"

theorem mem_lockOrder {dir : String} {dirs : List String} : dir ∈ lockOrder dirs ↔ dir ∈ dirs := by
  rw [lockOrder, List.mem_insertionSort, List.mem_eraseDups]

/-! ### Tokens -/

/-- What reading tokens and dates takes from the runtime: the claims of a token that is a JWT, the
first eight hexadecimal digits of a digest, `Date.parse` with `none` for `NaN`, and `String(value)`. -/
structure TokenRuntime where
  decodeJwtPayload : String → Option Object
  digest : String → String
  dateParse : String → Option ℤ
  textOf : Json → String

structure OAuthGrant where
  accessToken : String
  refreshToken : Option String
  expiresAt : Option Number
  mintedAt : Option Number
  deriving DecidableEq

/-- `refresh_token?.trim() || access_token`, digested. -/
def grantFingerprint (runtime : TokenRuntime) (grant : OAuthGrant) : String :=
  match grant.refreshToken.map trim with
  | some token => runtime.digest (if token = "" then grant.accessToken else token)
  | none => runtime.digest grant.accessToken

end AiSwitcher
