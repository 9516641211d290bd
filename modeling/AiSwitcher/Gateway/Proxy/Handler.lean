/-
This file models the proxy from the moment a request has passed authentication: its body is
read, the limits of its application are checked, a member is picked, and while members
answer with quota errors or their credentials fail the next one is tried. An answer that is
streamed ends later; its row is left to the stream.

The loops run a given number of rounds at most, and answer `none` when these do not suffice.
-/

import AiSwitcher.Gateway.Proxy.Selection

namespace AiSwitcher.Gateway.Proxy

open JavaScript Interrupted

variable {Native : Type} (runtime : ProxyRuntime Native) (app : App)

/-- A response whose body is passed on while it is read. -/
structure Streaming where
  identity : String
  model : Option String
  httpStatus : Nat
  headers : Headers
  tap : UsageTap

/-- What the proxy returns: an error in the shape of the provider, its native limit answer, a
response without a body, or a stream. -/
inductive Reply (Native : Type) where
  | error (style : ApiStyle) (status : Nat) (message : String) (retryAfter : Option String)
  | native (answer : Native)
  | empty (status : Nat) (headers : Headers)
  | streaming (stream : Streaming)

/-! ### Rows -/

def rowFor (identity : String) (status : RowStatus) (httpStatus : Nat)
    (counts : Option UsageCounts) (streamed : Bool) (model : Option String) : UsageRow where
  app := app.name
  provider := app.settings.provider
  identity := identity
  counts := match counts with
    | some counts => { counts with model := counts.model.or model }
    | none => ⟨model, 0, 0, 0, 0⟩
  status := status
  httpStatus := httpStatus
  streamed := streamed

/-- The row of a request that got no answer from an upstream. -/
def recordUnanswered (identity : String) (status : RowStatus) (httpStatus : Nat)
    (model : Option String) : Handling Unit :=
  .perform (.record (rowFor app identity status httpStatus none false model))

def reject (identity : String) (status : Nat) (message : String) (model : Option String) :
    Handling (Reply Native) := do
  recordUnanswered app identity .rejected status model
  return .error app.settings.style status message none

def clientAborted (identity : String) (model : Option String) : Handling (Reply Native) := do
  recordUnanswered app identity .clientAborted 499 model
  return .empty 499 []

/-! ### The body -/

def REPLAY_LIMIT_BYTES : Nat := 8 * 1024 * 1024

/-- The bytes to reserve; of a body of unknown length, as much as may be held for replay. -/
def reserveFor (request : Request) : Nat :=
  if request.hasBody then
    match request.declaredLength with
    | some declared => if REPLAY_LIMIT_BYTES < declared then 0 else declared
    | none => REPLAY_LIMIT_BYTES
  else 0

def receiveBody (request : Request) : Handling Body := do
  if 0 < reserveFor request then .attempt (.reserve (reserveFor request)) else pure ()
  .attempt .readBody

/-- The body, or the answer to a request whose body could not be read. -/
def receive (identity : String) (request : Request) : Handling (Reply Native ⊕ Body) :=
  (receiveBody request).andThen fun
    | .ok body => return .inr body
    | .error _ => do
        -- An abort can land a tick after the read error it caused.
        let gone ← aborted
        if gone then pure () else .perform .nextTick
        let gone ← aborted
        let reply ← if gone then clientAborted app identity none
          else reject app identity 400 "request body could not be read" none
        return .inl reply

def requestModel : Body → Option String
  | .buffered bytes => if bytes.head? = some 0x7B then runtime.requestModel bytes else none
  | .none | .stream => none

/-! ### Limits -/

def ICT_OFFSET_MS : ℚ := 7 * 3600000

def DAY_MS : ℚ := 86400000

def dayStartIct (now : ℚ) : ℚ := ⌊(now + ICT_OFFSET_MS) / DAY_MS⌋ * DAY_MS - ICT_OFFSET_MS

/-- The status and the reason of a refusal. -/
def checkCaps (model : Option String) (usedToday : Nat) : Option (Nat × String) :=
  if app.settings.models ≠ [] ∧ ¬ model.any (· ∈ app.settings.models) then
    some (403, "model not allowed for this app")
  else if app.settings.dailyTokens.any (· ≤ usedToday) then some (429, "daily token cap reached")
  else none

/-- The tokens used today; a store that fails is served without a cap. -/
def usedToday : Handling Nat :=
  match app.settings.dailyTokens with
  | none => return 0
  | some _ => do
      let now ← .perform .now
      (Program.attempt (.usageSince app.name (dayStartIct now))).andThen fun
        | .ok used => return used
        | .error _ => return 0

/-! ### No member -/

/-- The pick while only short holds stand in the way, and the waits so far. -/
structure Waiting where
  picked : Picked
  waits : Nat

def waitRound (waitStart : ℚ) (state : Waiting) : Handling (Waiting ⊕ Waiting) :=
  match state.picked with
  | .reject .noHeadroom => do
      let (go, waits) ← waitForShortHold app waitStart state.waits
      if go then
        let held ← exhaustedNames app
        let picked ← pickIdentity app held
        return .inl ⟨picked, waits⟩
      else return .inr ⟨state.picked, waits⟩
  | _ => return .inr state

def firstPick : Handling Picked := do
  let held ← if app.settings.target.isPool then exhaustedNames app else pure []
  pickIdentity app held

/-- The member that would be free without the short holds, with its hold. A member that is held
for a rate limit frees sooner than one that is held for its credential. -/
def heldMember : Handling (Option (String × Hold)) := do
  let names ← exhaustedNames app
  let holds ← .perform .holds
  let quotaOut := names.filter fun name => holds.all (·.1 ≠ exKey app name)
  let free ← pickIdentity app quotaOut
  let held (picked : Picked) : Handling (Option (String × Hold)) :=
    match picked with
    | .reject _ => return none
    | .identity name => do
        let hold ← .perform (.hold (exKey app name))
        return hold.map (name, ·)
  let first ← held free
  match first with
  | some (_, ⟨.cred, _, _, _⟩) =>
      let holds ← .perform .holds
      let creds := holds.filter fun entry =>
        entry.1.1 = app.settings.provider ∧ entry.2.kind = .cred
      let alternative ← pickIdentity app (quotaOut ++ creds.map (·.1.2))
      let second ← held alternative
      return match second with
        | some (name, ⟨.burst, long, sig, message⟩) => some (name, ⟨.burst, long, sig, message⟩)
        | _ => first
  | _ => return first

/-- The answer about a hold rather than about usage, if a hold is all that stands in the way. -/
def holdReply (identity : String) (model : Option String) : Handling (Option (Reply Native)) := do
  match ← heldMember app with
  | some (name, ⟨.burst, _, _, _⟩) =>
      let limit ← .perform (.exhaustedUntil (exKey app name))
      let now ← .perform .now
      let secs := min 60 (max 1 ⌈(limit.getD 0 - now) / 1000⌉)
      recordUnanswered app identity .rejected 429 model
      return some (.error app.settings.style 429 "upstream rate limit: retry shortly"
        (some (toString secs)))
  | some (_, ⟨.cred, _, _, message⟩) =>
      recordUnanswered app identity .credentialError 502 model
      return some (.error app.settings.style 502 (message.getD "upstream credential unavailable")
        none)
  | none => return none

def rejectMessage : RejectReason → String
  | .reserve => "identity is at its usage reserve"
  | .noIdentities => "no identities configured for " ++ app.settings.provider.text
  | .noHeadroom => "no pool member has headroom below the reserve"

/-- Out of capacity: the answer has the limit shape of the provider where there is one. -/
def limitReply (identity : String) (model : Option String) (reason : RejectReason) :
    Handling (Reply Native) :=
  let generic := reject app identity 429 (rejectMessage app reason) model
  if reason = .noIdentities then generic
  else do
    let usages ← memberUsages app
    let now ← .perform .now
    match runtime.nativeLimitResponse app.settings.provider usages app.reserve now with
    | some native =>
        recordUnanswered app identity .rejected 429 model
        return .native native
    | none => generic

def rejectPick (identity : String) (model : Option String) (reason : RejectReason) :
    Handling (Reply Native) :=
  if reason = .noHeadroom ∧ app.settings.target.isPool = true then do
    match ← holdReply app identity model with
    | some reply => return reply
    | none => limitReply runtime app identity model reason
  else limitReply runtime app identity model reason

/-! ### Attempts -/

/-- A client that is already gone gets no upstream call. -/
def send (body : Body) (cred : ProviderCredential) : Handling Response := do
  let gone ← aborted
  if gone then .fail .aborted else .attempt (.fetch cred body)

/-- One attempt for an identity, including at most one refresh after a 401 and retry. -/
def attempt (body : Body) (identity : String) : Handling Response := do
  let cred ← .attempt (.getCredential app.settings.provider identity)
  let res ← send body cred
  if res.status = 401 ∧ app.settings.provider.refreshable = true then
    let refreshed ←
      (Program.attempt (.refreshAfter401 app.settings.provider identity cred.accessToken)).outcome
    match refreshed with
    | .error error =>
        if error = .refreshCooldown ∨ error = .notRefreshable then
          if app.settings.target.isPool ∧ ¬ body.isStream then
            .perform (.discard res)
            .fail error
          else return res -- pass the upstream 401 through
        else if body.isStream then return res
        else
          .perform (.discard res)
          .fail error
    | .ok cred =>
        -- A streamed body cannot be sent again; the credential is fresh for the next request.
        if body.isStream then return res
        else
          .perform (.discard res)
          send body cred
  else return res

def QUOTA_CODES : List String :=
  ["insufficient_quota", "rate_limit_error", "rate_limit_exceeded", "usage_limit_reached",
    "quota_exceeded", "billing_hard_limit_reached"]

def isQuotaBody (bytes : Utf8.Bytes) : Bool :=
  match runtime.parse (Utf8.decode bytes) with
  | none => false
  | some parsed =>
      let top := parsed.asObject?.getD []
      let error := ((top.get "error").bind Json.asObject?).getD []
      [top.get "type", top.get "code", error.get "type", error.get "code"].any fun value =>
        (value.bind Json.asString?).any fun code =>
          QUOTA_CODES.any (·.toList = code.toList.map Char.toLower)

def peek (res : Response) : Handling (Utf8.Bytes × Bool) :=
  if res.hasBody then .attempt (.peek res) else return ([], true)

/-- Whether an answer is about quota; the answer of Codex that proves exhaustion is marked. -/
def isQuota (res : Response) : Handling (Bool × Response) :=
  if res.status = 402 then return (true, res)
  else if res.status = 429 then
    if app.settings.provider ≠ .codex then return (true, res)
    else do
      let (bytes, whole) ← peek res
      if whole && includes (Utf8.decode bytes) "usage_limit_reached" then
        return (true, { res with headers := res.headers.set SUBSCRIPTION_EXHAUSTED_HEADER "1" })
      else return (true, res)
  else if res.status ≠ 403 then return (false, res)
  else do
    let (bytes, whole) ← peek res
    return (whole && isQuotaBody runtime bytes, res)

/-! ### Failover -/

/-- How the attempts ended, and the identity the last answer is of. -/
structure Settled where
  identity : String
  answer : Except Thrown Response

/-- The variables of the failover loop. -/
structure Failover where
  tried : List String
  name : String
  quota : Bool
  cur : Option Response
  credErr : Option Thrown
  identity : String
  waits : Nat

def Failover.settled (state : Failover) : Settled where
  identity := state.identity
  answer := match state.cur with
    | some res => .ok res
    | none => .error (state.credErr.getD .other)

/-- The next member was picked. -/
def tryNext (body : Body) (state : Failover) (next : String) : Handling Failover := do
  let second ← (attempt app body next).outcome
  match second with
  | .error error =>
      let gone ← aborted
      if gone then
        match state.cur with
        | some cur => .perform (.discard cur)
        | none => pure ()
        .fail .aborted
      else if isCredentialFailure error then
        holdCredentialFailure app next error
        return { state with
          tried := state.tried ++ [next], name := next, credErr := some error }
      else return { state with tried := state.tried ++ [next], name := next }
  | .ok second =>
      let (quota, res) ← isQuota runtime app second
      match state.cur with
      | some cur => .perform (.discard cur)
      | none => pure ()
      let identity ← .perform (.canonical app.settings.provider next)
      if quota then holdQuota runtime app next res else pure ()
      return { state with name := next, quota := quota, cur := some res, identity := identity }

/-- No member is left: if everyone is only briefly held, wait and try the pool again from the top. -/
def tryAgain (waitStart : ℚ) (state : Failover) : Handling (Failover ⊕ Settled) :=
  match state.cur with
  | some cur =>
      if state.quota ∧ ¬ provesSubscriptionExhaustion runtime cur.headers then do
        let (go, waits) ← waitForShortHold app waitStart state.waits
        if go then return .inl { state with tried := [], name := "", waits := waits }
        else return .inr state.settled
      else return .inr state.settled
  | none => return .inr state.settled

/-- A round of the loop. What it throws ends the loop. -/
def failoverRound (body : Body) (waitStart : ℚ) (state : Failover) :
    Handling (Failover ⊕ Settled) :=
  if state.quota ∨ state.cur.isNone then
    Program.andThen
      (do
        let state := { state with tried := state.tried ++ [state.name] }
        let held ← exhaustedNames app
        match ← pickIdentity app (held ++ state.tried) with
        | .reject _ => tryAgain runtime app waitStart state
        | .identity next => do
            let state ← tryNext runtime app body state next
            return .inl state)
      fun
        | .ok outcome => return outcome
        | .error error => return .inr ⟨state.identity, .error error⟩
  else return .inr state.settled

/-- The attempts for a request. Only a pool with a body that can be replayed tries another member. -/
def settle (rounds : Nat) (body : Body) (waitStart : ℚ) (waits : Nat) (picked : String) :
    Handling (Option Settled) := do
  let identity ← .perform (.canonical app.settings.provider picked)
  let poolReplay := app.settings.target.isPool && !body.isStream
  let first ← (attempt app body identity).outcome
  match first with
  | .ok res =>
      if poolReplay then
        let checked ← (isQuota runtime app res).outcome
        match checked with
        | .error error => return some ⟨identity, .error error⟩
        | .ok (quota, res) =>
            if quota then holdQuota runtime app picked res else pure ()
            Program.iterate (failoverRound runtime app body waitStart) rounds
              ⟨[], picked, quota, some res, none, identity, waits⟩
      else return some ⟨identity, .ok res⟩
  | .error error =>
      let gone ← aborted
      if poolReplay ∧ ¬ gone ∧ isCredentialFailure error then
        holdCredentialFailure app picked error
        Program.iterate (failoverRound runtime app body waitStart) rounds
          ⟨[], picked, false, none, some error, identity, waits⟩
      else return some ⟨identity, .error error⟩

/-- The answer to a request whose attempts failed; it never carries the error. -/
def failedReply (identity : String) (model : Option String) (error : Thrown) :
    Handling (Reply Native) := do
  let gone ← .perform .controllerAborted
  if gone then clientAborted app identity model
  else
    match error with
    | .credential code provider name =>
        recordUnanswered app identity .credentialError 502 model
        return .error app.settings.style 502 (clientMessage code provider name) none
    | .refreshCooldown | .notRefreshable | .swapLock =>
        recordUnanswered app identity .credentialError 502 model
        return .error app.settings.style 502 "upstream credential unavailable" none
    | .aborted | .other =>
        recordUnanswered app identity .upstreamError 502 model
        return .error app.settings.style 502 "upstream request failed" none

/-! ### The answer -/

def HOP_BY_HOP : List String :=
  ["connection", "proxy-connection", "keep-alive", "proxy-authenticate", "proxy-authorization",
    "te", "trailer", "trailers", "transfer-encoding", "upgrade"]

/-- The headers without those a header `connection` names, and without the fixed set. -/
def stripHopByHop (headers : Headers) : Headers :=
  let named := (((headers.get "connection").getD "").toList.splitOn ',').map fun name =>
    String.ofList (runtime.toLowerCase (trim (.ofList name)).toList)
  (named ++ HOP_BY_HOP).foldl Members.delete headers

def replyHeaders (headers : Headers) : Headers :=
  let stripped := stripHopByHop runtime (headers.delete SUBSCRIPTION_EXHAUSTED_HEADER)
  if stripped.hasKey "content-encoding" then
    (stripped.delete "content-encoding").delete "content-length"
  else stripped

def okStatus (httpStatus : Nat) : RowStatus := if 400 ≤ httpStatus then .upstreamError else .ok

def usageStyle : UsageStyle := app.settings.provider.usageStyle app.settings.style

/-- The row of a request that an upstream answered. -/
def finishedRow (stream : Streaming) (status : RowStatus) : UsageRow :=
  let tap := stream.tap.asked runtime.toTapRuntime (usageStyle app)
  rowFor app stream.identity status stream.httpStatus (some tap.reader.usage.counts) tap.sse
    stream.model

def answered (identity : String) (model : Option String) (res : Response) :
    Handling (Reply Native) := do
  .perform .releaseBody
  let stream : Streaming :=
    ⟨identity, model, res.status, replyHeaders runtime res.headers,
      .new runtime.toTapRuntime ((res.headers.get "content-type").getD "")⟩
  if res.hasBody then return .streaming stream
  else
    .perform (.record (finishedRow runtime app stream (okStatus res.status)))
    return .empty res.status stream.headers

/-! ### A request -/

/-- What follows once the body was read. -/
def respond (rounds : Nat) (identity : String) (body : Body) (model : Option String) :
    Handling (Option (Reply Native)) := do
  if app.settings.models ≠ [] ∧ body.isStream then
    let reply ← reject app identity 413 "request too large to verify the model allowlist" model
    return some reply
  else
    let used ← usedToday app
    match checkCaps app model used with
    | some (status, reason) =>
        let reply ← reject app identity status reason model
        return some reply
    | none =>
        let waitStart ← .perform .now
        let picked ← firstPick app
        match ← Program.iterate (waitRound app waitStart) rounds ⟨picked, 0⟩ with
        | none => return none
        | some ⟨.reject reason, _⟩ =>
            let reply ← rejectPick runtime app identity model reason
            return some reply
        | some ⟨.identity name, waits⟩ =>
            match ← settle runtime app rounds body waitStart waits name with
            | none => return none
            | some ⟨identity, .ok res⟩ =>
                let reply ← answered runtime app identity model res
                return some reply
            | some ⟨identity, .error error⟩ =>
                let reply ← failedReply app identity model error
                return some reply

/-- Anything unexpected: one row and an error, never the cause. -/
def unexpected (identity : String) (model : Option String) : Handling (Reply Native) := do
  let gone ← aborted
  if gone then clientAborted app identity model
  else
    recordUnanswered app identity .error 500 model
    return .error app.settings.style 500 "gateway error" none

def run (rounds : Nat) (identity : String) (request : Request) :
    Handling (Option (Reply Native)) :=
  if ¬ request.pathAllowed then do
    let reply ←
      reject app identity 400 "encoded slashes and dot segments are not allowed in the path" none
    return some reply
  else do
    match ← receive app identity request with
    | .inl reply => return some reply
    | .inr body =>
        let model := requestModel runtime body
        (respond runtime app rounds identity body model).andThen fun
          | .ok reply => return reply
          | .error _ => do
              let reply ← unexpected app identity model
              return some reply

/-- A request that has passed authentication. -/
def proxy (rounds : Nat) (request : Request) : Handling (Option (Reply Native)) := do
  let identity ← match app.settings.target with
    | .pin identity => .perform (.canonical app.settings.provider identity)
    | .pool _ => pure "-"
  let reply ← run runtime app rounds identity request
  .perform .releaseBody
  return reply

end AiSwitcher.Gateway.Proxy
