/-
This file models the local gateway. A request goes to the gateway of the cluster while that
answers; a breaker that all requests share sends it to the provider directly otherwise, and lets
one request at a time probe whether the cluster answers again.

What a request reads of the breaker and what it does to it without waiting in between is one
action; every action before and after may be one of another request. The log is left out, and with
it the set of members already reported as logged out.
-/

import AiSwitcher.Library.Pattern
import AiSwitcher.Library.Crew
import AiSwitcher.Gateway.Proxy.Handler

namespace AiSwitcher.Gateway.Local

open JavaScript Interrupted
open Proxy (ApiStyle GatewayProvider Thrown ProviderCredential Body Response Headers
  ProxyRuntime clientMessage isQuotaBody stripHopByHop)

/-! ### Constants -/

def LOCAL_BREAKER_MS : ℚ := 30000

def LOCAL_STATUS_PATH : String := "/__ais/status"

def GATEWAY_MARK_HEADER : String := "x-ais-gateway"

def ERROR_PEEK_BYTES : Nat := 64 * 1024

section Patterns

open Pattern

/-- A text in whatever case, as by the flag `i`. -/
def caseless (text : String) : Pattern :=
  text.toList.foldr (fun next rest => .andThen (.character (·.toLower == next)) rest) .empty

def anything : Pattern := .many (.character fun _ => true)

/-- `\s*` -/
def spaces : Pattern := .many (.character isWhitespace)

/-- `\b` after a word, and whatever follows. -/
def wordEnd : Pattern :=
  optional (.sequence (.character fun next => !(next.isAlphanum || next == '_')) anything)

/-- Edge bodies that mean the request never reached the gateway. -/
def EDGE_NOT_SERVED : Pattern :=
  .sequence anything (oneOf [
    .sequence (caseless "no healthy upstream") anything,
    all [caseless "upstream connect error or disconnect/reset before headers.", spaces,
      optional (caseless "retried and the latest "), caseless "reset reason: connection ",
      oneOf [caseless "timeout", caseless "failure", caseless "refused"], wordEnd],
    all [caseless "upstream_reset_before_response_started\x7b",
      oneOf [caseless "connection_failure", caseless "connection_timeout",
        caseless "connection_refused"], caseless "\x7d", anything],
    .sequence (caseless "overflow") anything])

def MODEL_NOT_FOUND : Pattern :=
  all [anything, exactly "\"code\"", spaces, exactly ":", spaces, exactly "\"model_not_found\"",
    anything]

def UNABLE_TO_CONNECT : Pattern := all [anything, caseless "unable to connect", anything]

end Patterns

/-! ### Requests -/

inductive Tool where
  | claude
  | codex
  deriving DecidableEq

def Tool.provider : Tool → GatewayProvider
  | .claude => .claude
  | .codex => .codex

structure Route where
  tool : Tool
  app : String
  style : ApiStyle
  deriving DecidableEq

def ROUTES (first : String) : Option Route :=
  if first = "claude" then some ⟨.claude, "agents-claude", .anthropic⟩
  else if first = "codex" then some ⟨.codex, "agents-codex", .openai⟩
  else none

/-- The names that every object has; `ROUTES` has them as well, without an application. -/
def OBJECT_PROTOTYPE : List String :=
  ["constructor", "__defineGetter__", "__defineSetter__", "hasOwnProperty", "__lookupGetter__",
    "__lookupSetter__", "isPrototypeOf", "propertyIsEnumerable", "toString", "valueOf",
    "__proto__", "toLocaleString"]

structure Url where
  host : String
  pathname : String
  search : String

structure Request where
  url : Url
  headers : Headers

/-- The first segment of a path, and the path from the next slash on. -/
def splitPath (pathname : String) : String × String :=
  let tail := pathname.toList.drop 1
  (.ofList (tail.takeWhile (· != '/')), .ofList (tail.dropWhile (· != '/')))

structure LocalRuntime (Native : Type) extends ProxyRuntime Native where
  sha256 : String → Utf8.Bytes

/-- `/^bearer\s+(\S+)$/i` -/
def bearer (header : String) : Option String :=
  let text := (trim header).toList
  let spaced := text.drop 6
  let given := spaced.dropWhile isWhitespace
  if (text.take 6).map Char.toLower = "bearer".toList ∧ given.length < spaced.length ∧ given ≠ [] ∧
      given.all (!isWhitespace ·) then
    some (.ofList given)
  else none

/-- The key of a request, in the places where the two tools put it. -/
def givenKey (headers : Headers) : Option String :=
  ((headers.get "authorization").bind bearer).or
    (((headers.get "x-api-key").map trim).or ((headers.get "api-key").map trim))

variable {Native : Type} (runtime : LocalRuntime Native)

def authorised (headers : Headers) (expected : Option String) : Bool :=
  match givenKey headers, expected with
  | some given, some expected =>
      given != "" && expected != "" && runtime.sha256 given == runtime.sha256 expected
  | _, _ => false

/-! ### The breaker -/

structure LocalGatewayDeps where
  remoteBase : String
  breakerMs : Option ℚ
  instanceName : Option String

variable (deps : LocalGatewayDeps)

/-- `deps.remoteBase.replace(/\/+$/, "")` -/
def LocalGatewayDeps.base : String :=
  .ofList (deps.remoteBase.toList.reverse.dropWhile (· == '/')).reverse

def LocalGatewayDeps.interval : ℚ := deps.breakerMs.getD LOCAL_BREAKER_MS

inductive Mode where
  | remote
  | direct
  deriving DecidableEq

/-- What all requests share. -/
structure Breaker where
  mode : Mode
  since : ℚ
  probeAt : ℚ
  probing : Bool
  deriving DecidableEq

/-- Without the address of a cluster the gateway is direct only. -/
def Breaker.new (now : ℚ) : Breaker where
  mode := if deps.base = "" then .direct else .remote
  since := now
  probeAt := 0
  probing := false

structure LocalGatewayStatus where
  instanceName : Option String
  mode : Mode
  sinceMs : ℚ
  probeAtMs : Option ℚ
  remote : String
  deriving DecidableEq

def Breaker.status (breaker : Breaker) : LocalGatewayStatus where
  instanceName := deps.instanceName
  mode := breaker.mode
  sinceMs := breaker.since
  probeAtMs := if breaker.mode = .direct then some breaker.probeAt else none
  remote := deps.base

/-- Where a request goes. -/
inductive Destination where
  | remote
  | probe
  | direct
  deriving DecidableEq

namespace Breaker

def setMode (next : Mode) (now : ℚ) (breaker : Breaker) : Breaker :=
  if breaker.mode = next then breaker else { breaker with mode := next, since := now }

/-- Opens the breaker; `now` and `later` are what the clock says the first and the second time. -/
def remoteFailed (isProbe : Bool) (now later : ℚ) (breaker : Breaker) : Breaker :=
  if isProbe then
    { breaker with probing := false, probeAt := now + deps.interval }.setMode .direct later
  else if breaker.mode = .direct then breaker
  else { breaker with probeAt := now + deps.interval }.setMode .direct later

/-- Only the probe may close the breaker. -/
def remoteOk (isProbe : Bool) (now : ℚ) (breaker : Breaker) : Breaker :=
  if isProbe then { breaker with probing := false }.setMode .remote now else breaker

/-- A request too big to replay always goes to the remote. -/
def choose (body : Body) (now : ℚ) (breaker : Breaker) : Destination × Breaker :=
  if deps.base ≠ "" ∧ (breaker.mode = .remote ∨ body.isStream) then (.remote, breaker)
  else if deps.base ≠ "" ∧ breaker.probeAt ≤ now ∧ breaker.probing = false then
    (.probe, { breaker with probing := true })
  else (.direct, breaker)

end Breaker

/-- How a remote attempt ended: with an answer, with a `RemoteFailure` and its reason, or with
another error. -/
inductive Ended where
  | answered
  | failed (reason : String)
  | otherwise
  deriving DecidableEq

/-- What `handle` does to the breaker when the remote attempt has ended. -/
def Breaker.ended (isProbe : Bool) (how : Ended) (now later : ℚ) (breaker : Breaker) : Breaker :=
  match how with
  | .answered => breaker.remoteOk isProbe now
  | .failed _ =>
      let caught := if isProbe then { breaker with probing := false } else breaker
      caught.remoteFailed deps isProbe now later
  | .otherwise => if isProbe then { breaker with probing := false } else breaker

/-! ### Actions -/

/-- A rejection of the fetch to the remote: whether the client has gone or the idle ceiling was
reached by then, and the code and message of the error. -/
structure FetchError where
  aborted : Bool
  idled : Bool
  code : Option String
  message : String
  deriving DecidableEq

inductive LocalAction : Type → Type
  | allowedHosts : LocalAction (List String)
  | breaker : LocalAction Breaker
  | clientToken (app : String) : LocalAction (Option String)
  | readBody : LocalAction (Option Body)
  | aborted : LocalAction Bool
  | now : LocalAction ℚ
  | choose (body : Body) : LocalAction Destination
  | fetchRemote (url : String) (headers : Headers) (body : Body) :
      LocalAction (Except FetchError Response)
  | remoteEnded (isProbe : Bool) (how : Ended) : LocalAction Unit
  | peek (res : Response) (cap : Nat) : LocalAction (Option (Utf8.Bytes × Bool))
  | discard (res : Response) : LocalAction Unit
  | members (tool : Tool) : LocalAction (Option (List String))
  | getCredential (provider : GatewayProvider) (name : String) :
      LocalAction (Except Thrown ProviderCredential)
  | refreshAfter401 (provider : GatewayProvider) (name accessToken : String) :
      LocalAction (Except Thrown ProviderCredential)
  | fetchDirect (cred : ProviderCredential) (body : Body) : LocalAction (Option Response)

/-- What is thrown while a request is handled. -/
inductive LocalError where
  | remoteIdle
  | remoteOther
  | remoteFailure (reason : String) (response : Option Response)
  | thrown (error : Thrown)

abbrev LocalHandling (Result : Type) := Program LocalAction LocalError Result

/-- The answer to a request. -/
inductive LocalReply where
  | forbidden
  | status (status : LocalGatewayStatus)
  | error (style : ApiStyle) (status : Nat) (message : String)
  | passed (res : Response)
  | clientGone

/-- An action that answers a credential or throws. -/
def credentialFrom (action : LocalAction (Except Thrown ProviderCredential)) :
    LocalHandling ProviderCredential := do
  match ← .perform action with
  | .ok cred => return cred
  | .error error => .fail (.thrown error)

/-- An answer without a body has been read at once. -/
def peek (res : Response) (cap : Nat) : LocalHandling (Utf8.Bytes × Bool) :=
  if res.hasBody then do
    match ← .perform (.peek res cap) with
    | some peeked => return peeked
    | none => .fail (.thrown .other)
  else return ([], true)

/-! ### The remote -/

def PRE_SEND_CODES : List String :=
  ["ECONNREFUSED", "ENOTFOUND", "EAI_AGAIN", "EAI_FAIL", "EHOSTUNREACH", "ENETUNREACH",
    "ConnectionRefused", "ConnectionTimedOut", "EPROTO", "UNABLE_TO_VERIFY_LEAF_SIGNATURE",
    "UNABLE_TO_GET_ISSUER_CERT", "UNABLE_TO_GET_ISSUER_CERT_LOCALLY",
    "DEPTH_ZERO_SELF_SIGNED_CERT", "SELF_SIGNED_CERT_IN_CHAIN", "CERT_HAS_EXPIRED",
    "CERT_NOT_YET_VALID", "ERR_TLS_CERT_ALTNAME_INVALID", "CERT_UNTRUSTED",
    "ERR_SSL_WRONG_VERSION_NUMBER"]

/-- A timeout counts only when its message shows that the connect itself failed. -/
def isPreSendError (err : FetchError) : Bool :=
  match err.code with
  | none => false
  | some code =>
      if code = "ETIMEDOUT" then UNABLE_TO_CONNECT.test err.message
      else PRE_SEND_CODES.contains code

def fetchFailure (err : FetchError) : LocalError :=
  if err.aborted then .thrown .aborted
  else if err.idled then .remoteIdle
  else if isPreSendError err then .remoteFailure "unreachable" none
  else .remoteOther

def remoteHeaders (headers : Headers) : Headers :=
  (((stripHopByHop runtime.toProxyRuntime headers).delete "host").delete "content-length").set
    "accept-encoding" "identity"

/-- The answer of the remote; an unmarked one came from an edge in front of the gateway. -/
def tryRemote (req : Request) (app rest : String) (body : Body) : LocalHandling Response := do
  let fetched ← .perform (.fetchRemote (deps.base ++ "/" ++ app ++ rest ++ req.url.search)
    (remoteHeaders runtime req.headers) body)
  match fetched with
  | .error err => .fail (fetchFailure err)
  | .ok res =>
      if res.headers.get GATEWAY_MARK_HEADER = some "1" then return res
      else if res.status = 502 then .fail (.remoteFailure "http-502" (some res))
      else if res.status = 503 then do
        let (bytes, _) ← peek res 4096
        if EDGE_NOT_SERVED.test (.ofList (Utf8.decode bytes)) then
          .fail (.remoteFailure "http-503" (some res))
        else return res
      -- A 504 is never replayed: the gateway may be mid-answer.
      else return res

/-! ### The direct path -/

def loggedOut : LocalError → Bool
  | .thrown (.credential .loginDead _ _) => true
  | _ => false

def isCredentialError : LocalError → Bool
  | .thrown (.credential ..) => true
  | _ => false

def send (body : Body) (cred : ProviderCredential) : LocalHandling Response := do
  match ← .perform (.fetchDirect cred body) with
  | some res => return res
  | none => .fail (.thrown .other)

/-- A token that expires within half a minute is refreshed before it is first sent. -/
def freshened (tool : Tool) (identity : String) (cred : ProviderCredential) :
    LocalHandling ProviderCredential := do
  match cred.expiresAtMs with
  | none => return cred
  | some expires =>
      let now ← .perform .now
      if expires ≤ now + 30000 ∧ tool.provider.refreshable = true then
        let refreshed ←
          (credentialFrom (.refreshAfter401 tool.provider identity cred.accessToken)).outcome
        match refreshed with
        | .ok cred => return cred
        | .error error => if loggedOut error then .fail error else return cred
      else return cred

def attempt (tool : Tool) (body : Body) (identity : String) : LocalHandling Response := do
  let stored ← credentialFrom (.getCredential tool.provider identity)
  let cred ← freshened tool identity stored
  let res ← send body cred
  if res.status = 401 ∧ tool.provider.refreshable = true ∧ body.isStream = false then
    let refreshed ←
      (credentialFrom (.refreshAfter401 tool.provider identity cred.accessToken)).outcome
    match refreshed with
    | .error (.thrown .refreshCooldown) | .error (.thrown .notRefreshable) => return res
    | .error error =>
        .perform (.discard res)
        .fail error
    | .ok cred =>
        .perform (.discard res)
        send body cred
  else return res

/-- A login whose plan lacks the model cannot serve the request either. -/
def isQuota (res : Response) : LocalHandling Bool :=
  if res.status = 429 ∨ res.status = 402 then return true
  else if res.status ≠ 403 ∧ res.status ≠ 400 ∧ res.status ≠ 404 then return false
  else do
    let (bytes, whole) ← peek res ERROR_PEEK_BYTES
    let unusable := if res.status = 403 then isQuotaBody runtime.toProxyRuntime bytes
      else MODEL_NOT_FOUND.test (.ofList (Utf8.decode bytes))
    return whole && unusable

/-- Response headers fit for the client. -/
def clean (up : Response) : Response :=
  let headers := stripHopByHop runtime.toProxyRuntime up.headers
  if headers.hasKey "content-encoding" then
    { up with headers := (headers.delete "content-encoding").delete "content-length" }
  else { up with headers }

/-- The variables of the loop over the members. -/
structure Passed where
  lastQuota : Option Response
  lastDead : Option LocalError
  lastTransient : Option LocalError

def discardQuota (passed : Passed) : LocalHandling Unit :=
  match passed.lastQuota with
  | some res => .perform (.discard res)
  | none => return ()

/-- The outer `catch`. -/
def failedReply (style : ApiStyle) (passed : Passed) (error : LocalError) :
    LocalHandling LocalReply := do
  discardQuota passed
  let gone ← .perform .aborted
  if gone then return .clientGone
  else
    match error with
    | .thrown (.credential code provider identity) =>
        return .error style (if loggedOut error then 401 else 502)
          (clientMessage code provider identity)
    | _ => return .error style 502 "direct upstream request failed"

/-- Every member was tried: a dead login wins over a transient failure in the message. -/
def exhaustedReply (style : ApiStyle) (passed : Passed) : LocalHandling LocalReply :=
  match passed.lastQuota, passed.lastDead, passed.lastTransient with
  | some res, _, _ => return .passed (clean runtime res)
  | none, some error, _ => failedReply style passed error
  | none, none, some error => failedReply style passed error
  | none, none, none => return .error style 502 "direct upstream request failed"

/-- A login that fails never ends the loop: the next member gets the request. -/
def failOver (error : LocalError) (passed : Passed) : Passed :=
  if loggedOut error then { passed with lastDead := some error }
  else { passed with lastTransient := some error }

def tryMembers (tool : Tool) (style : ApiStyle) (body : Body) :
    List String → Passed → LocalHandling LocalReply
  | [], passed => exhaustedReply runtime style passed
  | name :: names, passed => do
      match ← (attempt tool body name).outcome with
      | .error error =>
          let gone ← .perform .aborted
          if gone ∨ isCredentialError error = false then failedReply style passed error
          else tryMembers tool style body names (failOver error passed)
      | .ok up =>
          if body.isStream then return .passed (clean runtime up)
          else
            match ← (isQuota runtime up).outcome with
            | .error error => failedReply style passed error
            | .ok quota =>
                discardQuota passed
                if quota then tryMembers tool style body names { passed with lastQuota := some up }
                else return .passed (clean runtime up)

def direct (tool : Tool) (style : ApiStyle) (body : Body) : LocalHandling LocalReply := do
  let listed ← .perform (.members tool)
  let names := listed.getD []
  if names = [] then return .error style 502 "no local login available for direct mode"
  else tryMembers runtime tool style body names ⟨none, none, none⟩

/-! ### A request -/

/-- What follows a `RemoteFailure`, once the breaker was told. -/
def replay (route : Route) (body : Body) (response : Option Response) : LocalHandling LocalReply :=
  match body.isStream, response with
  | true, some res => return .passed (clean runtime res)
  | true, none => return .error route.style 502 "cluster gateway unreachable"
  | false, some res => do
      .perform (.discard res)
      direct runtime route.tool route.style body
  | false, none => direct runtime route.tool route.style body

def viaRemote (req : Request) (route : Route) (rest : String) (body : Body) (isProbe : Bool) :
    LocalHandling LocalReply := do
  match ← (tryRemote runtime deps req route.app rest body).outcome with
  | .ok res =>
      .perform (.remoteEnded isProbe .answered)
      return .passed (clean runtime res)
  | .error (.remoteFailure reason response) =>
      .perform (.remoteEnded isProbe (.failed reason))
      replay runtime route body response
  | .error error =>
      .perform (.remoteEnded isProbe .otherwise)
      match error with
      | .remoteIdle => return .error route.style 504 "cluster gateway did not answer in time"
      | .remoteOther => return .error route.style 502 "cluster gateway connection failed"
      | _ => return .clientGone

def forward (req : Request) (route : Route) (rest : String) (body : Body) :
    LocalHandling LocalReply := do
  let destination ← .perform (.choose body)
  match destination with
  | .remote => viaRemote runtime deps req route rest body false
  | .probe => viaRemote runtime deps req route rest body true
  | .direct => direct runtime route.tool route.style body

def receive (req : Request) (route : Route) (rest : String) : LocalHandling LocalReply := do
  let expected ← .perform (.clientToken route.app)
  if authorised runtime req.headers expected then
    match ← .perform .readBody with
    | some body => forward runtime deps req route rest body
    | none =>
        let gone ← .perform .aborted
        if gone then return .clientGone
        else return .error route.style 400 "request body could not be read"
  else return .error route.style 401 "invalid or missing local gateway key"

def handle (req : Request) : LocalHandling LocalReply := do
  let hosts ← .perform .allowedHosts
  let host := (req.headers.get "host").getD req.url.host
  if .ofList (runtime.toLowerCase host.toList) ∉ hosts then return .forbidden
  else if req.url.pathname = LOCAL_STATUS_PATH then do
    let breaker ← .perform .breaker
    return .status (breaker.status deps)
  else
    let (first, rest) := splitPath req.url.pathname
    match ROUTES first with
    | some route => receive runtime deps req route rest
    | none =>
        if first ∈ OBJECT_PROTOTYPE then
          return .error .openai 401 "invalid or missing local gateway key"
        else return .error .openai 404 "not found"

end AiSwitcher.Gateway.Local
