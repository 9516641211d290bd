/-
This file embeds how Codex's `auth.json` is read by swap pools, of
`src/identities/codex-auth.ts`. The account of a login is recorded twice, in
`tokens.account_id` and in the tokens themselves, and a file where the two disagree
is hybrid and trusted for neither.
-/

import AiSwitcher.Identities.Pool.Files

namespace AiSwitcher.Codex

open JavaScript Interleaving Pool

/-! ### The account -/

def codexAuthPath (configDir : String) : String :=
  configDir ++ "/auth.json"

/-- `auth?.tokens`, whose members are none when it is not an object. -/
def tokensOf (auth : Option Object) : Object :=
  ((auth.bind fun fields => fields.get "tokens").bind Json.asObject?).getD []

def accessToken (auth : Option Object) : Option Json :=
  (tokensOf auth).get "access_token"

def refreshToken (auth : Option Object) : Option Json :=
  (tokensOf auth).get "refresh_token"

/-- The `chatgpt_account_id` claim of a token. -/
def jwtAccountId (runtime : TokenRuntime) (token : Option Json) : Option String := do
  let text ← token.bind Json.asString?
  let claims ← runtime.decodeJwtPayload text
  let auth ← (claims.get "https://api.openai.com/auth").bind Json.asObject?
  (auth.get "chatgpt_account_id").bind usableToken

structure CodexAccount where
  fileId : Option String
  jwtId : Option String
  hybrid : Bool
  id : Option String
  deriving DecidableEq

def codexAccountOf (runtime : TokenRuntime) (auth : Option Object) : CodexAccount :=
  let tokens := tokensOf auth
  let fileId := (tokens.get "account_id").bind usableToken
  let jwtId := (jwtAccountId runtime (accessToken auth)).or
    (jwtAccountId runtime (tokens.get "id_token"))
  let hybrid : Bool := fileId.isSome ∧ jwtId.isSome ∧ fileId ≠ jwtId
  { fileId, jwtId, hybrid, id := if hybrid then none else fileId.or jwtId }

/-- Unix seconds of the file's last refresh. -/
def codexRecency (runtime : TokenRuntime) (auth : Option Object) : Number :=
  let lastRefresh := (auth.bind fun fields => fields.get "last_refresh").bind Json.asString?
  match lastRefresh.bind runtime.dateParse with
  | some milliseconds => .finite (milliseconds / 1000)
  | none =>
    let claims := ((accessToken auth).bind Json.asString?).bind runtime.decodeJwtPayload
    let issued := (claims.bind fun fields => fields.get "iat").bind Json.asNumber?
    let expires := (claims.bind fun fields => fields.get "exp").bind Json.asNumber?
    (issued.or expires).getD (.finite (-1))

/-- The file carries a usable login. -/
def hasCodexTokens (auth : Option Object) : Bool :=
  ((accessToken auth).bind usableToken).isSome

def readCodexAuthText (configDir : String) : PoolProgram (Option FileText) :=
  Program.readFile (.credentials configDir)

/-! ### Tokens in a file -/

/-- The access token of the first is in the second, and the refresh token if there is one. -/
def HoldsTokensOf (vault replaced : Option Object) : Prop :=
  (accessToken replaced).bind Json.asString? = (accessToken vault).bind Json.asString? ∧
    ∀ token, (refreshToken replaced).bind Json.asString? = some token →
      (refreshToken vault).bind Json.asString? = some token

/-- What a login was replaced with is a login that is at least as recent. -/
def AtLeastAsRecent (runtime : TokenRuntime) (before after : Option Object) : Prop :=
  hasCodexTokens before = true → hasCodexTokens after = true ∧
    Number.lt (codexRecency runtime after) (codexRecency runtime before) = false

end AiSwitcher.Codex
