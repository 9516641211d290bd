/-
This file embeds how Claude credential stores are locked, read and written, of
`src/identities/oauth-reconcile.ts` and `claude-swap-lock.ts`. A store is the
`.credentials.json` of one folder; a rotated grant is written into it under the
folder's `.oauth_refresh.lock`, and every other member of the file is kept.
-/

import AiSwitcher.Identities.Pool.Adapter
import AiSwitcher.Library.Interleaving

namespace AiSwitcher

open JavaScript Interleaving

/-! ### Files and locks -/

/-- The files of a Claude folder. -/
inductive ClaudeFile where
  | credentials (configDir : String)
  | claudeJson (configDir : String)
  /-- `.credentials.json.pre-swap.bak` -/
  | preSwapBackup (configDir : String)
  /-- `.credentials.json.ais-bak` -/
  | aisBackup (configDir : String)
  deriving DecidableEq

/-- Claude Code's lock directories. -/
inductive ClaudeLock where
  | oauthRefresh (configDir : String)
  | claudeJson (configDir : String)
  deriving DecidableEq

abbrev ClaudeProgram (Result : Type) := Program ClaudeFile FileText ClaudeLock Result

/-- `nativeStorePathFor("claude", configDir)` -/
def credentialsPath (configDir : String) : String :=
  configDir ++ "/.credentials.json"

def claudeJsonPath (configDir : String) : String :=
  configDir ++ "/.claude.json"

/-- Both locks of a Claude folder. -/
def withClaudeLocks {Result : Type} (configDir : String) (program : ClaudeProgram Result) :
    ClaudeProgram Result :=
  Program.withLock (.oauthRefresh configDir) (Program.withLock (.claudeJson configDir) program)

def withOauthRefreshLock {Result : Type} (configDir : String) (program : ClaudeProgram Result) :
    ClaudeProgram Result :=
  Program.withLock (.oauthRefresh configDir) program

/-! ### Reading credentials -/

/-- Ten digits or more are milliseconds. -/
def secondsFromMs : Number → Number
  | .finite value => if value < 10000000000 then .finite value else .finite (value / 1000).floor
  | .infinite negative => .infinite negative

def readNativeAnthropic (text : Option FileText) : Option OAuthGrant := do
  let raw ← parseObject text
  let auth ← (raw.get "claudeAiOauth").bind Json.asObject?
  let accessToken ← (auth.get "accessToken").bind usableToken
  return {
    accessToken
    refreshToken := (auth.get "refreshToken").bind usableToken
    expiresAt := ((auth.get "expiresAt").bind Json.asNumber?).map secondsFromMs
    mintedAt := none }

/-- `readProviderGrantCopy("claude", configDir)` -/
def readProviderGrantCopy (configDir : String) : ClaudeProgram (Option OAuthGrant) := do
  let text ← Program.readFile (.credentials configDir)
  return readNativeAnthropic text

def accountUuid (claudeJson : Option Object) : Option String := do
  let fields ← claudeJson
  let account ← (fields.get "oauthAccount").bind Json.asObject?
  let uuid ← (account.get "accountUuid").bind Json.asString?
  if uuid = "" then none else some uuid

/-! ### Writing credentials -/

/-- Seconds as milliseconds. -/
def milliseconds : Number → Number
  | .finite value => .finite (value * 1000)
  | .infinite negative => .infinite negative

/-- The store's members with the grant's tokens; what the grant lacks keeps the store's value. -/
def nativeAnthropic (raw : Object) (grant : OAuthGrant) : Object :=
  let auth : Object := ((raw.get "claudeAiOauth").bind Json.asObject?).getD []
  let refresh : Object := match grant.refreshToken with
    | some token => if token = "" then [] else [("refreshToken", .str token)]
    | none => []
  let expiry : Object := match grant.expiresAt with
    | some expiry => [("expiresAt", .num (milliseconds expiry))]
    | none => []
  raw.set "claudeAiOauth"
    (.obj (((auth.set "accessToken" (.str grant.accessToken)).spread refresh).spread expiry))

/-- `writeProviderGrantCopy("claude", configDir, grant)`: whether the store could be written. The
copy kept first is best effort. -/
def writeProviderGrantCopy (configDir : String) (grant : OAuthGrant) : ClaudeProgram Bool := do
  let text ← Program.readFile (.credentials configDir)
  let store := stringify (nativeAnthropic ((parseObject text).getD []) grant)
  match text with
  | some kept =>
    .write (.aisBackup configDir) kept fun _ => .write (.credentials configDir) store .done
  | none => .write (.credentials configDir) store .done

end AiSwitcher
