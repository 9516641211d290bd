/-
This file has the data of the proxy: the applications and the credentials it uses, what an
upstream answers, the rows of the ledger, and the actions by which a request acts on the
world. The members that are held back are shared by all requests, so what a request reads of them
is an answer of the world too.

The times and the cost estimate of a row, the metrics and the log are left out.
-/

import Mathlib.Data.Rat.Floor
import AiSwitcher.Library.Interrupted
import AiSwitcher.Gateway.Store
import AiSwitcher.Gateway.UsageTap

namespace AiSwitcher.Gateway.Proxy

open JavaScript Interrupted

/-! ### Applications -/

inductive GatewayProvider where
  | claude
  | codex
  | kimi
  | grok
  | zai
  | ali
  | opencode
  deriving DecidableEq

inductive ApiStyle where
  | anthropic
  | openai
  deriving DecidableEq

/-- The identity of an application, or the pool it picks from; no identities named are all. -/
inductive Target where
  | pin (identity : String)
  | pool (identities : List String)
  deriving DecidableEq

def Target.isPool : Target → Bool
  | .pin _ => false
  | .pool _ => true

/-- What the proxy reads of an application besides its name. -/
structure AppSettings where
  provider : GatewayProvider
  style : ApiStyle
  target : Target
  models : List String
  dailyTokens : Option Nat
  reservePercent : Option ℚ
  deriving DecidableEq

abbrev App := GatewayApp AppSettings

def GatewayProvider.refreshable : GatewayProvider → Bool
  | .claude | .codex | .kimi | .grok => true
  | .zai | .ali | .opencode => false

def GatewayProvider.usageStyle : GatewayProvider → ApiStyle → UsageStyle
  | .claude, _ | .ali, _ => .anthropic
  | .codex, _ => .openaiResponses
  | .grok, _ | .opencode, _ => .openaiChat
  | .kimi, .anthropic | .zai, .anthropic => .anthropic
  | .kimi, .openai | .zai, .openai => .openaiChat

/-! ### Credentials -/

structure ProviderCredential where
  identity : String
  accessToken : String
  accountId : Option String
  expiresAtMs : Option ℚ
  deriving DecidableEq

inductive CredentialCode where
  | refreshFailed
  | refreshLockTimeout
  | tokenUnchanged
  | noCredential
  | unknownIdentity
  | retired
  | loginDead
  deriving DecidableEq

def CredentialCode.text : CredentialCode → String
  | .refreshFailed => "refresh-failed"
  | .refreshLockTimeout => "refresh-lock-timeout"
  | .tokenUnchanged => "token-unchanged"
  | .noCredential => "no-credential"
  | .unknownIdentity => "unknown-identity"
  | .retired => "retired"
  | .loginDead => "login-dead"

def GatewayProvider.text : GatewayProvider → String
  | .claude => "claude"
  | .codex => "codex"
  | .kimi => "kimi"
  | .grok => "grok"
  | .zai => "zai"
  | .ali => "ali"
  | .opencode => "opencode"

def loginCommand (provider : GatewayProvider) (identity : String) : String :=
  match provider with
  | .claude => "claude --identity=" ++ identity ++ ", then run /login inside it"
  | .codex | .grok => provider.text ++ " --identity=" ++ identity ++ " login"
  | .kimi => "kimi --identity=" ++ identity ++ ", then sign in when it asks"
  | .ali => "ais auth login " ++ identity ++ " --tool=ali"
  | .zai => "zai --identity=" ++ identity ++ " auth login"
  | .opencode => "opencode --identity=" ++ identity ++ ", then sign in when it asks"

/-- What can be thrown while a request is handled. -/
inductive Thrown where
  | credential (code : CredentialCode) (provider : GatewayProvider) (identity : String)
  | refreshCooldown
  | notRefreshable
  | swapLock
  | aborted
  | other
  deriving DecidableEq

def isCredentialFailure : Thrown → Bool
  | .credential .. | .refreshCooldown | .notRefreshable | .swapLock => true
  | .aborted | .other => false

/-- The text for the client: plain about a dead login, a bare reason code otherwise. -/
def clientMessage (code : CredentialCode) (provider : GatewayProvider) (identity : String) : String :=
  if code = .loginDead then
    provider.text ++ " identity \"" ++ identity ++
      "\" is logged out (its saved login cannot be refreshed). Log back in with: " ++
      loginCommand provider identity
  else "upstream credential unavailable (" ++ code.text ++ ")"

/-! ### Usage of a member -/

structure UsageWindow where
  label : String
  utilization : Option ℚ
  resetsAt : Option String
  deriving DecidableEq

/-- A reading of a member's usage; a number that is not finite is `none`. -/
structure PoolUsage where
  maxUtilization : Option ℚ
  windows : List UsageWindow
  extraUsage : Bool
  deriving DecidableEq

/-! ### Requests and answers -/

/-- The body of a request; one that is a stream cannot be sent twice. -/
inductive Body where
  | none
  | buffered (bytes : Utf8.Bytes)
  | stream
  deriving DecidableEq

def Body.isStream : Body → Bool
  | .stream => true
  | .none | .buffered _ => false

/-- What is read of a request; `pathAllowed` says that its path has no encoded slash or dot. -/
structure Request where
  pathAllowed : Bool
  hasBody : Bool
  declaredLength : Option Nat
  deriving DecidableEq

abbrev Headers := Members String

/-- The answer of an upstream; its body is read later. -/
structure Response where
  status : Nat
  headers : Headers
  hasBody : Bool
  deriving DecidableEq

inductive RowStatus where
  | ok
  | rejected
  | error
  | clientAborted
  | credentialError
  | upstreamError
  | streamError
  deriving DecidableEq

/-- A row of the ledger. -/
structure UsageRow where
  app : String
  provider : GatewayProvider
  identity : String
  counts : UsageCounts
  status : RowStatus
  httpStatus : Nat
  streamed : Bool
  deriving DecidableEq

/-! ### Members held back -/

inductive HoldKind where
  | burst
  | cred
  deriving DecidableEq

/-- A hold is `long` if it lasts until a person acts; then it is released early when the
signature of the credential changes. -/
structure Hold where
  kind : HoldKind
  long : Bool
  sig : Option String
  message : Option String
  deriving DecidableEq

abbrev MemberKey := GatewayProvider × String

/-! ### Actions -/

inductive GatewayAction : Type → Type
  | now : GatewayAction ℚ
  | requestAborted : GatewayAction Bool
  | controllerAborted : GatewayAction Bool
  | nextTick : GatewayAction Unit
  | sleep (ms : ℚ) : GatewayAction Unit
  | reserve (bytes : Nat) : GatewayAction (Except Thrown Unit)
  | releaseBody : GatewayAction Unit
  | readBody : GatewayAction (Except Thrown Body)
  | usageSince (app : String) (since : ℚ) : GatewayAction (Except Thrown Nat)
  | poolMembers (provider : GatewayProvider) : GatewayAction (Except Thrown (List String))
  | canonical (provider : GatewayProvider) (name : String) : GatewayAction String
  | usageFor (provider : GatewayProvider) (name : String) : GatewayAction (Option PoolUsage)
  | signature (provider : GatewayProvider) (name : String) : GatewayAction (Option String)
  | exhausted : GatewayAction (List (MemberKey × ℚ))
  | exhaustedUntil (key : MemberKey) : GatewayAction (Option ℚ)
  | holds : GatewayAction (List (MemberKey × Hold))
  | hold (key : MemberKey) : GatewayAction (Option Hold)
  | setExhausted (key : MemberKey) (limit : ℚ) : GatewayAction Unit
  | deleteExhausted (key : MemberKey) : GatewayAction Unit
  | setHold (key : MemberKey) (hold : Hold) : GatewayAction Unit
  | deleteHold (key : MemberKey) : GatewayAction Unit
  | getCredential (provider : GatewayProvider) (name : String) :
      GatewayAction (Except Thrown ProviderCredential)
  | refreshAfter401 (provider : GatewayProvider) (name accessToken : String) :
      GatewayAction (Except Thrown ProviderCredential)
  | fetch (cred : ProviderCredential) (body : Body) : GatewayAction (Except Thrown Response)
  | peek (res : Response) : GatewayAction (Except Thrown (Utf8.Bytes × Bool))
  | discard (res : Response) : GatewayAction Unit
  | record (row : UsageRow) : GatewayAction Unit

abbrev Handling (Result : Type) := Program GatewayAction Thrown Result

/-- What the code uses of the standard library, the model a body names, and the limit answers
in the shape of a provider. -/
structure ProxyRuntime (Native : Type) extends TapRuntime where
  number : String → Option ℚ
  dateParse : String → Option ℚ
  requestModel : Utf8.Bytes → Option String
  nativeLimitResponse : GatewayProvider → List (Option PoolUsage) → ℚ → ℚ → Option Native

/-- The client has gone. -/
def aborted : Handling Bool := do
  let request ← .perform .requestAborted
  let controller ← .perform .controllerAborted
  return request || controller

/-- `Promise.all(values.map(action))` -/
def all {Value Result : Type} (action : Value → Handling Result) :
    List Value → Handling (List Result)
  | [] => return []
  | value :: rest => do
      let result ← action value
      let results ← all action rest
      return result :: results

end AiSwitcher.Gateway.Proxy
