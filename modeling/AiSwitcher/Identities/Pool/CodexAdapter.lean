/-
This file embeds the Codex pool adapter, `src/identities/pool/codex-adapter.ts`: a swap
of the pool's `auth.json` and its repair, `heal`. Running sessions rewrite the pool's
file at any moment and take no lock. Whatever the pool holds is written back to the
member that owns it, or kept in a backup, before the file is replaced; but `heal`
replaces a file that it takes for damaged with neither.
-/

import AiSwitcher.Identities.CodexAuth

namespace AiSwitcher.Codex

open JavaScript Interleaving Pool

/-! ### Writing back -/

/-- The account of a login. -/
def accountOf (runtime : TokenRuntime) (text : Option FileText) : Option String :=
  (codexAccountOf runtime (parseObject text)).id

/-- What `{...(auth?.tokens ?? {})}` copies. -/
def ownTokens (auth : Option Object) : Object :=
  match auth.bind fun fields => fields.get "tokens" with
  | some tokens => tokens.ownMembers
  | none => []

/-- The owner's file with the pool's tokens; what the pool lacks is kept. -/
def mergedAuth (ownerAuth : Option Object) (poolAuth : Object) : Object :=
  let tokens := (ownTokens ownerAuth).spread (tokensOf (some poolAuth))
  let withTokens : Object := (ownerAuth.getD []).set "tokens" (.obj tokens)
  match poolAuth.get "last_refresh" with
  | some lastRefresh => withTokens.set "last_refresh" lastRefresh
  | none => withTokens

/-- Whether the pool's grant is to be written into the owner's vault. -/
def decideWriteBack (runtime : TokenRuntime) (ownerAuth : Option Object) (poolAuth : Object) :
    WriteBackOutcome :=
  if hasCodexTokens ownerAuth then
    if (codexAccountOf runtime ownerAuth).id ≠ (codexAccountOf runtime (some poolAuth)).id then
      .noneAccountMismatch
    else if Json.strictEqual (accessToken ownerAuth) (accessToken (some poolAuth)) ∧
        Json.strictEqual (refreshToken ownerAuth) (refreshToken (some poolAuth)) then
      .noneIdentical
    else if Number.lt (codexRecency runtime ownerAuth) (codexRecency runtime (some poolAuth)) then
      .written
    else .noneMemberNewer
  else .written

/-- Write the pool's grant into the owner's vault when it is newer; the owner's lock is held. -/
def writeBackToOwner (runtime : TokenRuntime) (owner : Identity) (poolAuth : Object) :
    PoolProgram WriteBackOutcome := do
  let ownerText ← readCodexAuthText owner.configDir
  let ownerAuth := parseObject ownerText
  match decideWriteBack runtime ownerAuth poolAuth with
  | .written => do
    Program.writeFile (.credentials owner.configDir) (stringify (mergedAuth ownerAuth poolAuth))
    return .written
  | outcome => return outcome

/-- The pool's folder is locked first, then the others. -/
def withHeld {Result : Type} (poolDir : String) (held : List String)
    (program : PoolProgram Result) : PoolProgram Result :=
  Pool.withOauthRefreshLock poolDir (Pool.withOauthRefreshLocks (held.filter (· ≠ poolDir)) program)

/-! ### Swapping -/

/-- The text of a vault, with its account, when it has a usable login. -/
def usableLogin (runtime : TokenRuntime) (target : Identity) (text : Option FileText) :
    Except String (FileText × String) :=
  match text with
  | some vault =>
    if hasCodexTokens (parseObject text) then
      match (codexAccountOf runtime (parseObject text)).id with
      | some accountId => .ok (vault, accountId)
      | none => .error ("Account \"" ++ target.name ++ "\" has an inconsistent account id in " ++
          "auth.json (tokens.account_id disagrees with its access token); log in again under " ++
          "that identity.")
    else noLogin
  | none => noLogin
where
  noLogin : Except String (FileText × String) :=
    .error ("Account \"" ++ target.name ++ "\" has no usable Codex login (no ChatGPT tokens in " ++
      target.configDir ++ "); run \"codex login\" under that identity first.")

/-- Write the pool's grant back to the member it belongs to, with the outcome and notes. -/
def writeBackPool (runtime : TokenRuntime) (codex : MemberPool) (held : List String)
    (poolAuth : Option Object) :
    PoolProgram (Attempt codex.members held (WriteBackOutcome × List String)) :=
  match poolAuth with
  | none => return .done (.noneNoLiveCredentials, [])
  | some auth =>
    if ¬ hasCodexTokens poolAuth then return .done (.noneNoLiveCredentials, [])
    else if (codexAccountOf runtime poolAuth).hybrid then
      return .done (.noneAccountMismatch, [])
    else
      match (codexAccountOf runtime poolAuth).id with
      | none => return .done (.noneUnknownOwner, [])
      | some accountId => do
        let owner ← ownerByAccount (accountOf runtime) codex.members accountId codex.pool.active
        match owner with
        | none => return .done (.noneUnknownOwner, [])
        | some ⟨owner, member⟩ =>
          if unheld : owner.configDir ∉ held then return .needLock owner member unheld
          else do
            let outcome ← writeBackToOwner runtime owner auth
            return .done (outcome, otherOwnerNotes owner)
where
  otherOwnerNotes (owner : Identity) : List String :=
    match codex.pool.active with
    | some activeName =>
      if activeName ≠ "" ∧ owner.name ≠ activeName then
        ["pool held \"" ++ owner.name ++ "\"'s account, not the recorded active \"" ++
          activeName ++ "\"; wrote it back to \"" ++ owner.name ++ "\""]
      else []
    | none => []

/-- A live grant that no member could be found for is kept in a backup. -/
def backUpUnattributed (poolDir stamp : String) (writeBack : WriteBackOutcome)
    (poolText : Option FileText) : PoolProgram (List String) :=
  match poolText with
  | none => return []
  | some text =>
    if writeBack = .noneUnknownOwner ∨ writeBack = .noneAccountMismatch then do
      let backup ← writeBackup poolDir (codexAuthPath poolDir) .swap stamp text
      return ["live pool credentials could not be attributed to a member; kept a 0600 copy at " ++
        backup]
    else return []

/-- The vault may just have been written: its text as it is then, if it is still the account's. -/
def currentText (runtime : TokenRuntime) (target : Identity) (targetText : FileText)
    (targetId : String) (writeBack : WriteBackOutcome) : PoolProgram FileText :=
  if writeBack = .written then do
    let refreshed ← readCodexAuthText target.configDir
    match usableLogin runtime target refreshed with
    | .ok (text, accountId) => return if accountId = targetId then text else targetText
    | .error _ => return targetText
  else return targetText

/-- Install the vault's text and check that the pool's file has its account. -/
def install (runtime : TokenRuntime) (poolDir : String) (targetText : FileText)
    (targetId : String) (poolText : Option FileText) : PoolProgram Unit := do
  Program.writeFile (.credentials poolDir) targetText
  let after ← readCodexAuthText poolDir
  if (codexAccountOf runtime (parseObject after)).id = some targetId then return ()
  else
    match poolText with
    | some text => .write (.credentials poolDir) text fun _ => .fail mismatch
    | none => .fail mismatch
where
  mismatch : String :=
    "could not verify " ++ codexAuthPath poolDir ++
      " after the swap (account id mismatch); the previous file was restored"

/-- The swap once it has the target's vault. -/
def swapFrom (runtime : TokenRuntime) (codex : MemberPool) (target : Identity) (stamp : String)
    (held : List String) (targetText : FileText) (targetId : String) :
    PoolProgram (Attempt codex.members held SwapResult) := do
  let poolDir := codex.pool.configDir
  let poolText ← readCodexAuthText poolDir
  let poolAuth := parseObject poolText
  if codex.pool.active = some target.name ∧
      (codexAccountOf runtime poolAuth).id = some targetId ∧
      accessToken poolAuth = accessToken (parseObject (some targetText)) then
    return .done {
      pool := codex.pool.name, fromName := codex.pool.active, toName := target.name, noop := true
      writeBack := .noneIdentical, notes := [] }
  else do
    let attempt ← writeBackPool runtime codex held poolAuth
    match attempt with
    | .needLock owner member unheld => return .needLock owner member unheld
    | .done (writeBack, ownerNotes) => do
      let backupNotes ← backUpUnattributed poolDir stamp writeBack poolText
      let text ← currentText runtime target targetText targetId writeBack
      install runtime poolDir text targetId poolText
      return .done {
        pool := codex.pool.name, fromName := codex.pool.active, toName := target.name
        noop := false, writeBack, notes := ownerNotes ++ backupNotes }

def swapHeld (runtime : TokenRuntime) (codex : MemberPool) (target : Identity) (stamp : String)
    (held : List String) : PoolProgram (Attempt codex.members held SwapResult) :=
  withHeld codex.pool.configDir held do
    let targetText ← readCodexAuthText target.configDir
    match usableLogin runtime target targetText with
    | .error message => .fail message
    | .ok (text, accountId) => swapFrom runtime codex target stamp held text accountId

def swapCredentials (runtime : TokenRuntime) (codex : MemberPool) (target : Identity)
    (stamp : String) : PoolProgram SwapResult :=
  let active := codex.members.find? fun member => some member.name = codex.pool.active
  untilHeld codex.members codex.pool.configDir (swapHeld runtime codex target stamp)
    (target.configDir :: (active.map fun member => member.configDir).toList)

/-! ### Healing -/

/-- How the pool's file relates to the vault of the active member. -/
inductive CodexKind where
  | damaged
  | hybrid
  | same
  | ok
  | foreign (accountId : String)
  deriving DecidableEq

/-- The file has a usable access token and an id token. -/
def isComplete (auth : Option Object) : Bool :=
  hasCodexTokens auth && match ((tokensOf auth).get "id_token").bind Json.asString? with
    | some token => token != ""
    | none => false

/-- The classification of the pool's file, `vaultId` being the account of the vault. -/
def kindOf (runtime : TokenRuntime) (vaultAuth : Option Object) (vaultId : String)
    (poolAuth : Option Object) : CodexKind :=
  let account := codexAccountOf runtime poolAuth
  if ¬ isComplete poolAuth then .damaged
  else if account.hybrid then .hybrid
  else
    match account.id with
    | none => .damaged
    | some id =>
      if id ≠ vaultId then .foreign id
      else if ¬ Json.strictEqual (refreshToken poolAuth) (refreshToken vaultAuth) ∧
          Number.lt (codexRecency runtime vaultAuth) (codexRecency runtime poolAuth) then .same
      else .ok

def cannotHeal (codex : MemberPool) (active : Identity) : List String :=
  ["cannot heal " ++ codex.pool.name ++ ": active account \"" ++ active.name ++
    "\" has no usable login in its vault"]

/-- Restore the vault's text. -/
def restore (codex : MemberPool) (active : Identity) (vaultText : FileText)
    (notes : List String) : PoolProgram (List String) := do
  Program.writeFile (.credentials codex.pool.configDir) vaultText
  return notes ++ ["restored \"" ++ active.name ++ "\" into " ++ codex.pool.name]

/-- A copy of the pool's file, with its path. -/
def backUpHealed (poolDir stamp : String) (poolText : Option FileText) : PoolProgram String :=
  match poolText with
  | some text => writeBackup poolDir (codexAuthPath poolDir) .heal stamp text
  | none => return ""

/-- Repair a pool that holds another account: capture it into its owner or keep a copy. -/
def healForeign (runtime : TokenRuntime) (codex : MemberPool) (active : Identity) (stamp : String)
    (held : List String) (vaultText : FileText) (poolText : Option FileText)
    (poolAuth : Object) (accountId : String) :
    PoolProgram (Attempt codex.members held (List String)) := do
  let owner ← ownerByAccount (accountOf runtime) codex.members accountId (some active.name)
  match owner with
  | some ⟨owner, member⟩ =>
    if unheld : owner.configDir ∉ held then return .needLock owner member unheld
    else do
      let outcome ← writeBackToOwner runtime owner poolAuth
      let captured := if outcome = .written then "captured it into \"" ++ owner.name ++ "\""
        else "left \"" ++ owner.name ++ "\" as it was (" ++ outcome.text ++ ")"
      let notes ← restore codex active vaultText ["pool " ++ codex.pool.name ++ " held \"" ++
        owner.name ++ "\"'s account instead of \"" ++ active.name ++ "\"; " ++ captured]
      return .done notes
  | none => do
    let backup ← backUpHealed codex.pool.configDir stamp poolText
    let notes ← restore codex active vaultText ["pool " ++ codex.pool.name ++
      " held an account that is not a member; kept a 0600 copy at " ++ backup]
    return .done notes

/-- Repair the pool's file as it was found under the locks. -/
def repair (runtime : TokenRuntime) (codex : MemberPool) (active : Identity) (stamp : String)
    (held : List String) (vaultText : FileText) (vaultId : String) (poolText : Option FileText) :
    PoolProgram (Attempt codex.members held (List String)) :=
  let poolAuth := parseObject poolText
  match kindOf runtime (parseObject (some vaultText)) vaultId poolAuth with
  | .ok => return .done []
  | .same => do
    -- Never restored over: the newer tokens go into the vault.
    let outcome ← writeBackToOwner runtime active (poolAuth.getD [])
    return .done ["pool " ++ codex.pool.name ++ " held newer tokens for \"" ++ active.name ++
      "\"; vault write-back: " ++ outcome.text]
  | .foreign accountId =>
    healForeign runtime codex active stamp held vaultText poolText (poolAuth.getD []) accountId
  | .hybrid => do
    let backup ← backUpHealed codex.pool.configDir stamp poolText
    let notes ← restore codex active vaultText ["pool " ++ codex.pool.name ++ " auth.json was " ++
      "hybrid (account_id disagrees with its token); kept a 0600 copy at " ++ backup]
    return .done notes
  | .damaged => do
    let notes ← restore codex active vaultText
      ["pool " ++ codex.pool.name ++ " auth.json was empty or partial"]
    return .done notes

/-- Read the pool's file, and once more when `again` asks for it: a writer may be in the midst of
it. -/
def readSettled (poolDir : String) (again : Option FileText → Bool) :
    PoolProgram (Option FileText) := do
  let text ← readCodexAuthText poolDir
  if again text then readCodexAuthText poolDir else return text

/-- Decide on the files as they are under the locks. -/
def healHeld (runtime : TokenRuntime) (codex : MemberPool) (active : Identity) (stamp : String)
    (held : List String) : PoolProgram (Attempt codex.members held (List String)) :=
  withHeld codex.pool.configDir held do
    let vaultText ← readCodexAuthText active.configDir
    match usableLogin runtime active vaultText with
    | .error _ => return .done (cannotHeal codex active)
    | .ok (text, vaultId) => do
      let poolText ← readSettled codex.pool.configDir fun poolText =>
        kindOf runtime (parseObject (some text)) vaultId (parseObject poolText) = .damaged
      repair runtime codex active stamp held text vaultId poolText

def heal (runtime : TokenRuntime) (codex : MemberPool) (stamp : String) :
    PoolProgram (List String) :=
  match activeMember codex.members codex.pool.active with
  | none => return []
  | some active => do
    let vaultText ← readCodexAuthText active.configDir
    match usableLogin runtime active vaultText with
    | .error _ => return cannotHeal codex active
    | .ok (text, vaultId) => do
      let kind := fun poolText : Option FileText =>
        kindOf runtime (parseObject (some text)) vaultId (parseObject poolText)
      let poolText ← readSettled codex.pool.configDir fun poolText => kind poolText ≠ .ok
      if kind poolText = .ok then return []
      else
        untilHeld codex.members codex.pool.configDir (healHeld runtime codex active stamp)
          [active.configDir]

end AiSwitcher.Codex
