/-
This file models what decides whether a request to the gateway is admitted: the check of
a token, and the admin requests that put an application, issue a token for it and revoke it.
An admin request reads the cache, then writes through it, and any other request, any
refresh of the cache and a restart of the gateway may come between. The tokens of the
browser agents are not cached; they are issued and revoked in the store.
-/

import AiSwitcher.Gateway.CacheStore

namespace AiSwitcher.Gateway

open JavaScript

variable {Settings : Type}

/-! ### Tokens -/

def PREFIX_LEN : Nat := 8

def SECRET_LEN : Nat := 43

def TOKEN_HEAD : List Char := "aisg_".toList

/-- The hash of a secret as hex digits, and `Date.parse`, `none` for what is not a date. -/
structure TokenRuntime where
  hashSecret : List Char → String
  dateParse : String → Option Int

def isPrefixChar (char : Char) : Bool :=
  ('a' ≤ char && char ≤ 'z') || ('2' ≤ char && char ≤ '7')

def isSecretChar (char : Char) : Bool :=
  char.isAlphanum || char = '_' || char = '-'

/-- The prefix and the secret of a token. -/
def parseToken (raw : String) : Option (List Char × List Char) :=
  if TOKEN_HEAD.isPrefixOf raw.toList then
    let rest := raw.toList.drop TOKEN_HEAD.length
    let secret := rest.drop (PREFIX_LEN + 1)
    if rest.idxOf '_' = PREFIX_LEN ∧ PREFIX_LEN < rest.length ∧
        (rest.take PREFIX_LEN).all isPrefixChar ∧ secret.length = SECRET_LEN ∧
        secret.all isSecretChar then
      some (rest.take PREFIX_LEN, secret)
    else none
  else none

/-- `Buffer.from(text, "hex")`: the bytes up to the first pair that is not hex. -/
def fromHex : List Char → List Nat
  | high :: low :: rest =>
      match hexDigit? high, hexDigit? low with
      | some high, some low => (16 * high + low) :: fromHex rest
      | _, _ => []
  | _ => []
where
  hexDigit? (char : Char) : Option Nat :=
    if '0' ≤ char ∧ char ≤ '9' then some (char.toNat - '0'.toNat)
    else if 'a' ≤ char ∧ char ≤ 'f' then some (char.toNat - 'a'.toNat + 10)
    else if 'A' ≤ char ∧ char ≤ 'F' then some (char.toNat - 'A'.toNat + 10)
    else none

def TokenRuntime.sameHash (runtime : TokenRuntime) (stored : String) (secret : List Char) : Bool :=
  fromHex stored.toList = fromHex (runtime.hashSecret secret).toList

/-- A record is for this token and has not expired; an expiry that is not a date counts as past. -/
def TokenRuntime.admits (runtime : TokenRuntime) (now : Int) (tokenPrefix secret : List Char)
    (token : TokenRecord) : Bool :=
  token.tokenPrefix.toList = tokenPrefix && runtime.sameHash token.hash secret &&
    match token.expiresAt with
    | none => true
    | some at_ => (runtime.dateParse at_).any (now < ·)

/-- A token is checked against the application and its tokens, as read one after the other. -/
def verifyToken (runtime : TokenRuntime) (app : Option (GatewayApp Settings))
    (tokens : List TokenRecord) (raw : String) (now : Int) : Bool :=
  match parseToken raw, app with
  | some (tokenPrefix, secret), some app =>
      app.state = .active && tokens.any (runtime.admits now tokenPrefix secret)
  | _, _ => false

/-! ### The tokens of browser agents -/

structure AgentTokenRecord where
  identity : String
  tokenPrefix : String
  hash : String
  createdAt : String
  revokedAt : Option String
  deriving DecidableEq

def agentTokenByPrefix (agents : List AgentTokenRecord) (tokenPrefix : String) :
    Option AgentTokenRecord :=
  agents.find? fun token => token.tokenPrefix = tokenPrefix ∧ token.revokedAt = none

def revokeAgentTokens (agents : List AgentTokenRecord) (identity at_ : String) :
    List AgentTokenRecord :=
  agents.map fun token =>
    if token.identity = identity ∧ token.revokedAt = none then { token with revokedAt := some at_ }
    else token

/-- The record that an agent's token is admitted by. -/
def authAgentToken (runtime : TokenRuntime) (agents : List AgentTokenRecord) (raw : String) :
    Option AgentTokenRecord :=
  match parseToken raw with
  | some (tokenPrefix, secret) =>
      (agentTokenByPrefix agents (.ofList tokenPrefix)).filter fun token =>
        runtime.sameHash token.hash secret
  | none => none

/-! ### Admin requests -/

/-- An application as it is put: what the body does not say is kept. -/
def putRequest (existing : Option (GatewayApp Settings)) (name : String) (settings : Settings)
    (now : String) : GatewayApp Settings where
  name := name
  settings := settings
  state := (existing.map GatewayApp.state).getD .active
  createdAt := (existing.map GatewayApp.createdAt).getD now
  lastUsedAt := existing.bind GatewayApp.lastUsedAt

/-- A valid admin request, with the times and the token that it will make. -/
inductive Admin (Settings : Type) where
  | put (name : String) (settings : Settings) (now : String)
  | issue (name at_ : String) (rec : TokenRecord)
  | revoke (name : String)

/-- What a request does after its write: it answers, or it adds the token that it issues. -/
inductive Next where
  | answer
  | addToken (rec : TokenRecord)
  | revoked (name : String)

/-- An admin request that is to read the cache, or waits for the store to take its write or for the
store's answer. -/
inductive Request (Settings : Type) where
  | arrived (admin : Admin Settings)
  | writing (write : Write Settings) (next : Next)
  | reaching (index : Nat) (next : Next)

/-- What a request does when it has read the cache; `none` if it is refused. -/
def Admin.proceed (cache : CachedGatewayStore Settings) : Admin Settings → Option (Request Settings)
  | .put name settings now =>
      some (.writing (.putApp (putRequest (cache.getApp name) name settings now)) .answer)
  | .issue name at_ rec =>
      match cache.getApp name with
      | none => none
      | some app =>
          if app.state = .active then
            some (.writing (.expireTokens name at_) (.addToken { rec with app := name, expiresAt := none }))
          else none
  | .revoke name =>
      match cache.getApp name with
      | none => none
      | some _ => some (.writing (.revokeApp name) (.revoked name))

/-! ### A gateway -/

/-- A gateway over its store. A restart forgets the cache and the requests, but their writes may be
on their way. `revoked` are the applications whose revocation was answered, and
`revokedAgents` the places of the agent tokens that were revoked. -/
structure RunningGateway (Settings : Type) where
  site : CacheRun Settings
  requests : List (Request Settings)
  orphans : List (Write Settings)
  revoked : List String
  agents : List AgentTokenRecord
  revokedAgents : List Nat

inductive GatewayEvent (Settings : Type) where
  | request (admin : Admin Settings)
  | proceed (request : Nat)
  | store (request : Nat)
  | reach (request : Nat)
  | fail (request : Nat)
  | refresh (event : CacheEvent Settings)
  | restart
  | orphan (write : Nat)
  | issueAgent (token : AgentTokenRecord)
  | revokeAgents (identity at_ : String)

/-- The events of a warm-up. -/
def CacheEvent.isRefresh : CacheEvent Settings → Bool
  | .write _ | .reach _ => false
  | .warm | .list _ | .read _ | .install _ | .abandon _ => true

def Request.write? : Request Settings → Option (Write Settings)
  | .writing write _ => some write
  | .arrived _ | .reaching _ _ => none

namespace RunningGateway

def new (initial : Tables Settings) : RunningGateway Settings := ⟨.new initial, [], [], [], [], []⟩

/-- The store takes the write of a request, or refuses it and the request fails. -/
def take (gateway : RunningGateway Settings) (request : Nat) (write : Write Settings) (next : Next) :
    RunningGateway Settings :=
  if gateway.site.store.Accepts write then
    { gateway with
      site := gateway.site.step (.write write)
      requests := gateway.requests.set request (.reaching gateway.site.log.length next) }
  else { gateway with requests := gateway.requests.eraseIdx request }

/-- The answer of the store reaches the cache, and the request goes on. -/
def goOn (gateway : RunningGateway Settings) (request index : Nat) (next : Next) : RunningGateway Settings :=
  let reached := { gateway with site := gateway.site.step (.reach index) }
  match next with
  | .answer => { reached with requests := gateway.requests.eraseIdx request }
  | .revoked name =>
      { reached with
        requests := gateway.requests.eraseIdx request
        revoked := name :: gateway.revoked }
  | .addToken rec =>
      { reached with requests := gateway.requests.set request (.writing (.addToken rec) .answer) }

def step (gateway : RunningGateway Settings) : GatewayEvent Settings → RunningGateway Settings
  | .request admin => { gateway with requests := gateway.requests ++ [.arrived admin] }
  | .proceed request =>
      match gateway.requests[request]? with
      | some (.arrived admin) =>
          match admin.proceed gateway.site.cache with
          | some writing => { gateway with requests := gateway.requests.set request writing }
          | none => { gateway with requests := gateway.requests.eraseIdx request }
      | _ => gateway
  | .store request =>
      match gateway.requests[request]? with
      | some (.writing write next) => gateway.take request write next
      | _ => gateway
  | .reach request =>
      match gateway.requests[request]? with
      | some (.reaching index next) => gateway.goOn request index next
      | _ => gateway
  | .fail request => { gateway with requests := gateway.requests.eraseIdx request }
  | .refresh event =>
      if event.isRefresh then { gateway with site := gateway.site.step event } else gateway
  | .restart =>
      { gateway with
        site := .new gateway.site.store
        requests := []
        orphans := gateway.orphans ++ gateway.requests.filterMap Request.write? }
  | .orphan write =>
      match gateway.orphans[write]? with
      | some orphan =>
          { gateway with
            site := gateway.site.step (.write orphan)
            orphans := gateway.orphans.eraseIdx write }
      | none => gateway
  | .issueAgent token => { gateway with agents := gateway.agents ++ [token] }
  | .revokeAgents identity at_ =>
      { gateway with
        agents := revokeAgentTokens gateway.agents identity at_
        revokedAgents := gateway.revokedAgents ++ (List.range gateway.agents.length).filter fun place =>
          (gateway.agents[place]?).any fun token => token.identity = identity }

def runs (gateway : RunningGateway Settings) (events : List (GatewayEvent Settings)) : RunningGateway Settings :=
  events.foldl step gateway

/-! ### Runs in which no revocation is undone -/

/-- The store does not take an application as active where it has it revoked. -/
def Keeps (tables : Tables Settings) : Write Settings → Prop
  | .putApp put => put.state = .active →
      ∀ app, tables.getApp put.name = some app → app.state = .active
  | .revokeApp _ | .addToken _ | .expireTokens _ _ => True

/-- What a step may not do: the store does not take an application as active where it has it revoked;
an application put as active does not reach the cache after a later revocation of it; and a
warm-up that ends in a cache that is not loaded has read the applications after the
revocations that have reached the cache. -/
def Careful (gateway : RunningGateway Settings) : GatewayEvent Settings → Prop
  | .store request => ∀ write next, gateway.requests[request]? = some (.writing write next) →
      Keeps gateway.site.store write
  | .orphan write => ∀ orphan, gateway.orphans[write]? = some orphan →
      Keeps gateway.site.store orphan
  | .reach request => ∀ index next put,
      gateway.requests[request]? = some (.reaching index next) →
      gateway.site.log[index]? = some (.putApp put) → put.state = .active →
        ∀ later ∈ gateway.site.reached, index < later →
          gateway.site.log[later]? ≠ some (.revokeApp put.name)
  | .refresh (.install warm) => ∀ seen apps tokens readAt,
      gateway.site.warms[warm]? = some (.reading seen apps tokens [] readAt) →
      gateway.site.cache.loaded = false →
        ∀ index ∈ gateway.site.reached, ∀ name, gateway.site.log[index]? = some (.revokeApp name) →
          index < readAt (.app name)
  | _ => True

def CarefulRun : RunningGateway Settings → List (GatewayEvent Settings) → Prop
  | _, [] => True
  | gateway, event :: events => gateway.Careful event ∧ CarefulRun (gateway.step event) events

end RunningGateway

end AiSwitcher.Gateway
