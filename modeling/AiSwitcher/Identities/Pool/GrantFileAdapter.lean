/-
This file embeds the pool adapter for tools whose credentials are one JSON file with
rotating tokens, `src/identities/pool/grant-file-adapter.ts`: a swap of the pool's file
between its members' vaults, and its repair. What differs from tool to tool is a
`GrantFileSpec`. The tool's own lock is taken too, so that nothing else writes the
files while a call reads and writes them.
-/

import AiSwitcher.Identities.Pool.Files

namespace AiSwitcher.GrantFile

open JavaScript Interleaving Pool

/-! ### The tool's part -/

structure GrantIdentity where
  id : Option String
  hybrid : Bool
  deriving DecidableEq

/-- `same`: the pool's file is the member's own. `capture`: it holds the member's account next to
parts that may be another member's. -/
inductive WriteBackMode where
  | same
  | capture
  deriving DecidableEq

/-- The owner's new content, when something moves, and what is to be kept in a backup. -/
structure GrantMerge where
  next : Option Object
  backup : Option Object

structure GrantFileSpec where
  label : String
  loginHint : String
  relPath : String
  usable : Option Object → Bool
  identity : Option Object → GrantIdentity
  complete : Option Object → Bool
  fingerprint : Object → Json
  newerInto : Option Object → Object → WriteBackMode → List Object →
    Except String (Option GrantMerge)
  hasPoolOnlyContent : Option (Object → Option Object → Except String Bool)

variable (spec : GrantFileSpec)

def fileOf (configDir : String) : String :=
  configDir ++ "/" ++ spec.relPath

def readText (configDir : String) : PoolProgram (Option FileText) :=
  Program.readFile (.credentials configDir)

def accountOf (text : Option FileText) : Option String :=
  (spec.identity (parseObject text)).id

/-- The pool's folder first, then the members'; each folder's tool lock right after its own. -/
def withHeldLocks {Result : Type} (poolDir : String) (held : List String)
    (program : PoolProgram Result) : PoolProgram Result :=
  layer poolDir (((lockOrder held).filter (· ≠ poolDir)).foldr layer program)
where
  layer (dir : String) (inner : PoolProgram Result) : PoolProgram Result :=
    Pool.withOauthRefreshLock dir (Program.withLock (.tool dir) inner)

/-! ### The other members' grants -/

/-- `key.replace(/^(replaced|skipped):/, "")` -/
def originalKey (key : String) : String :=
  if startsWith key "replaced:" then sliceFrom key 9
  else if startsWith key "skipped:" then sliceFrom key 8
  else key

/-- A merge backup as a grant file: its entries under their original keys. -/
def originalEntries (backup : Object) : Object :=
  backup.entries.foldl (fun (grant : Object) entry => grant.set (originalKey entry.1) entry.2) []

def readMergeBackups (configDir : String) : List String → PoolProgram (List Object)
  | [] => pure []
  | stamp :: stamps => do
    let text ← Program.readFile (.backup configDir .merge stamp)
    let rest ← readMergeBackups configDir stamps
    return ((parseObject text).map originalEntries).toList ++ rest

/-- The vaults of the members other than the owner, and what their merge backups kept. `listing` has
the stamps of the merge backups in each folder. -/
def otherGrants (listing : String → List String) (owner : Identity) :
    List Identity → PoolProgram (List Object)
  | [] => pure []
  | member :: members =>
    if member.configDir = owner.configDir then otherGrants listing owner members
    else do
      let text ← readText member.configDir
      let backups ← readMergeBackups member.configDir (listing member.configDir)
      let rest ← otherGrants listing owner members
      return (parseObject text).toList ++ backups ++ rest

/-! ### Writing back -/

/-- What a call is given from outside: the stamp of its backups, and the stamps of the merge backups
that are there. -/
structure Surroundings where
  stamp : String
  listing : String → List String

/-- The owner's usable grant settles the write-back when it is another account's or the same. -/
def settledWriteBack (ownerGrant : Option Object) (poolGrant : Object) :
    Option WriteBackOutcome :=
  match ownerGrant with
  | none => none
  | some owner =>
    if spec.usable ownerGrant then
      if (spec.identity ownerGrant).id ≠ (spec.identity (some poolGrant)).id then
        some .noneAccountMismatch
      else if spec.fingerprint owner = spec.fingerprint poolGrant then some .noneIdentical
      else none
    else none

/-- Keep what a merge replaces or skips. -/
def backUpMerge (surroundings : Surroundings) (owner : Identity) (backup : Option Object) :
    PoolProgram Unit :=
  match backup with
  | none => return ()
  | some kept => do
    let _ ← writeBackup owner.configDir (fileOf spec owner.configDir) .merge surroundings.stamp
      (stringify kept)
    return ()

/-- Write a merge into the owner's vault. -/
def writeMerge (surroundings : Surroundings) (owner : Identity) (merge : Option GrantMerge) :
    PoolProgram WriteBackOutcome := do
  backUpMerge spec surroundings owner (merge.bind fun merge => merge.backup)
  match merge.bind fun merge => merge.next with
  | none => return .noneMemberNewer
  | some next => do
    Program.writeFile (.credentials owner.configDir) (stringify next)
    return .written

/-- Write the pool's grant into the owner's vault where it is newer; the owner's locks are held. -/
def writeBackToOwner (surroundings : Surroundings) (owner : Identity) (poolGrant : Object)
    (mode : WriteBackMode) (members : List Identity) : PoolProgram WriteBackOutcome := do
  let ownerText ← readText owner.configDir
  let ownerGrant := parseObject ownerText
  match settledWriteBack spec ownerGrant poolGrant with
  | some outcome => return outcome
  | none => do
    let others ← otherGrants surroundings.listing owner members
    let merge ← Program.ofOutcome (spec.newerInto (if spec.usable ownerGrant then ownerGrant else none)
      poolGrant mode others)
    writeMerge spec surroundings owner merge

/-! ### Swapping -/

/-- The text of a vault, with its account, when it has a usable login. -/
def usableLogin (target : Identity) (text : Option FileText) : Except String (FileText × String) :=
  match text with
  | some vault =>
    if spec.usable (parseObject text) then
      match accountOf spec text with
      | some accountId => .ok (vault, accountId)
      | none => .error ("Account \"" ++ target.name ++ "\" has an inconsistent or unattributable " ++
          "account id in its " ++ spec.label ++ " credentials; log in again under that identity.")
    else noLogin
  | none => noLogin
where
  noLogin : Except String (FileText × String) :=
    .error ("Account \"" ++ target.name ++ "\" has no usable " ++ spec.label ++
      " login (no OAuth tokens in " ++ target.configDir ++ "); " ++ spec.loginHint ++ " first.")

/-- Two usable grants have the same tokens. -/
def sameGrant (first second : Option Object) : Bool :=
  match first, second with
  | some first, some second => spec.fingerprint first = spec.fingerprint second
  | _, _ => false

/-- Write the pool's grant back to the member it belongs to, with the outcome and notes. -/
def writeBackPool (surroundings : Surroundings) (grants : MemberPool) (held : List String)
    (poolGrant : Option Object) :
    PoolProgram (Attempt grants.members held (WriteBackOutcome × List String)) :=
  match poolGrant with
  | none => return .done (.noneNoLiveCredentials, [])
  | some grant =>
    if ¬ spec.usable poolGrant then return .done (.noneNoLiveCredentials, [])
    else if (spec.identity poolGrant).hybrid then return .done (.noneAccountMismatch, [])
    else
      match (spec.identity poolGrant).id with
      | none => return .done (.noneUnknownOwner, [])
      | some accountId => do
        let owner ← ownerByAccount (accountOf spec) grants.members accountId grants.pool.active
        match owner with
        | none => return .done (.noneUnknownOwner, [])
        | some ⟨owner, member⟩ =>
          if unheld : owner.configDir ∉ held then return .needLock owner member unheld
          else do
            let mode := if some owner.name = grants.pool.active then WriteBackMode.same else .capture
            let outcome ← writeBackToOwner spec surroundings owner grant mode grants.members
            return .done (outcome, otherOwnerNotes owner)
where
  otherOwnerNotes (owner : Identity) : List String :=
    match grants.pool.active with
    | some activeName =>
      if activeName ≠ "" ∧ owner.name ≠ activeName then
        ["pool held \"" ++ owner.name ++ "\"'s account, not the recorded active \"" ++
          activeName ++ "\"; wrote it back to \"" ++ owner.name ++ "\""]
      else []
    | none => []

/-- `spec.hasPoolOnlyContent?.(pool, vault)` -/
def hasPoolOnlyContent (poolGrant : Object) (vault : Option Object) : Except String Bool :=
  match spec.hasPoolOnlyContent with
  | some test => test poolGrant vault
  | none => .ok false

/-- The member the pool's other content is compared with: the recorded active one, else the
target. -/
def comparedMember (grants : MemberPool) (target : Identity) : Option Identity :=
  grants.members.find? fun member => member.name = grants.pool.active.getD target.name

/-- The text of a member's vault; no member, no text. -/
def readVault : Option Identity → PoolProgram (Option FileText)
  | some member => readText member.configDir
  | none => return none

/-- Whether the pool has content that the compared vault lacks. -/
def poolOnlyContent (grants : MemberPool) (target : Identity) (poolGrant : Option Object) :
    PoolProgram Bool :=
  match poolGrant with
  | none => return false
  | some grant =>
    if (spec.identity poolGrant).id = none ∨ (spec.identity poolGrant).hybrid then return false
    else do
      let vault ← readVault (comparedMember grants target)
      Program.ofOutcome (hasPoolOnlyContent spec grant (parseObject vault))

/-- A grant that no member could be found for, or content that no write-back carries over, is kept
in a backup. -/
def backUpSwap (surroundings : Surroundings) (poolDir : String) (writeBack : WriteBackOutcome)
    (poolOnly : Bool) (poolText : Option FileText) : PoolProgram (List String) :=
  match poolText with
  | none => return []
  | some text =>
    if poolOnly ∨ writeBack = .noneUnknownOwner ∨ writeBack = .noneAccountMismatch then do
      let backup ← writeBackup poolDir (fileOf spec poolDir) .swap surroundings.stamp text
      return ["live pool credentials " ++ (if poolOnly then "hold entries the member lacks"
        else "could not be attributed to a member") ++ "; kept a 0600 copy at " ++ backup]
    else return []

/-- The vault may just have been written: its text as it is then, if it is still the account's. -/
def currentText (target : Identity) (targetText : FileText) (targetId : String)
    (writeBack : WriteBackOutcome) : PoolProgram FileText :=
  if writeBack = .written then do
    let refreshed ← readText target.configDir
    match usableLogin spec target refreshed with
    | .ok (text, accountId) => return if accountId = targetId then text else targetText
    | .error _ => return targetText
  else return targetText

/-- Install the vault's text and check that the pool's file has its account. -/
def install (poolDir : String) (targetText : FileText) (targetId : String)
    (poolText : Option FileText) : PoolProgram Unit := do
  Program.writeFile (.credentials poolDir) targetText
  let after ← readText poolDir
  if accountOf spec after = some targetId then return ()
  else
    match poolText with
    | some text => .write (.credentials poolDir) text fun _ => .fail mismatch
    | none => .fail mismatch
where
  mismatch : String :=
    "could not verify " ++ fileOf spec poolDir ++
      " after the swap (account id mismatch); the previous file was restored"

/-- The swap once the pool's grant has been written back. -/
def replacePool (surroundings : Surroundings) (grants : MemberPool) (target : Identity)
    (targetText : FileText) (targetId : String) (poolText : Option FileText)
    (writeBack : WriteBackOutcome) (ownerNotes : List String) : PoolProgram SwapResult := do
  let poolDir := grants.pool.configDir
  let poolOnly ← poolOnlyContent spec grants target (parseObject poolText)
  let backupNotes ← backUpSwap spec surroundings poolDir writeBack poolOnly poolText
  let text ← currentText spec target targetText targetId writeBack
  install spec poolDir text targetId poolText
  return {
    pool := grants.pool.name, fromName := grants.pool.active, toName := target.name
    noop := false, writeBack, notes := ownerNotes ++ backupNotes }

/-- The swap once it has the target's vault. -/
def swapFrom (surroundings : Surroundings) (grants : MemberPool) (target : Identity)
    (held : List String) (targetText : FileText) (targetId : String) :
    PoolProgram (Attempt grants.members held SwapResult) := do
  let poolText ← readText grants.pool.configDir
  let poolGrant := parseObject poolText
  if grants.pool.active = some target.name ∧ accountOf spec poolText = some targetId ∧
      spec.usable poolGrant ∧ sameGrant spec poolGrant (parseObject (some targetText)) then
    return .done {
      pool := grants.pool.name, fromName := grants.pool.active, toName := target.name, noop := true
      writeBack := .noneIdentical, notes := [] }
  else do
    let attempt ← writeBackPool spec surroundings grants held poolGrant
    match attempt with
    | .needLock owner member unheld => return .needLock owner member unheld
    | .done (writeBack, ownerNotes) => do
      let result ← replacePool spec surroundings grants target targetText targetId poolText
        writeBack ownerNotes
      return .done result

def swapHeld (surroundings : Surroundings) (grants : MemberPool) (target : Identity)
    (held : List String) : PoolProgram (Attempt grants.members held SwapResult) :=
  withHeldLocks grants.pool.configDir held do
    let targetText ← readText target.configDir
    match usableLogin spec target targetText with
    | .error message => .fail message
    | .ok (text, accountId) => swapFrom spec surroundings grants target held text accountId

def swapCredentials (surroundings : Surroundings) (grants : MemberPool) (target : Identity) :
    PoolProgram SwapResult :=
  let active := grants.members.find? fun member => some member.name = grants.pool.active
  untilHeld grants.members grants.pool.configDir (swapHeld spec surroundings grants target)
    (target.configDir :: (active.map fun member => member.configDir).toList)

/-! ### Healing -/

/-- How the pool's file relates to the vault of the active member. -/
inductive GrantKind where
  | damaged
  | hybrid
  | foreign (accountId : String)
  | same
  | behind
  | ok
  deriving DecidableEq

/-- The active member's vault, when the pool may be healed from it: its text, grant and account. -/
structure HealthyVault where
  text : FileText
  grant : Object
  accountId : String

/-- Why the pool cannot be healed, or the vault to heal it from. -/
def healthyVault (grants : MemberPool) (active : Identity) (text : Option FileText) :
    Except (List String) HealthyVault :=
  match usableLogin spec active text, parseObject text with
  | .ok (vault, accountId), some grant =>
    if spec.complete (some grant) then .ok ⟨vault, grant, accountId⟩
    else .error ["cannot heal " ++ grants.pool.name ++ ": active account \"" ++ active.name ++
      "\" has an incomplete login in its vault (not restoring from it)"]
  | _, _ => .error ["cannot heal " ++ grants.pool.name ++ ": active account \"" ++ active.name ++
      "\" has no usable login in its vault"]

/-- Something in the second grant is newer than in the first. -/
def movesInto (owner pool : Object) (others : List Object) : Except String Bool := do
  let merge ← spec.newerInto (some owner) pool .same others
  return (merge.bind fun merge => merge.next).isSome

/-- The kind of a complete file of the vault's account with other tokens. -/
def kindOfOwn (vault : HealthyVault) (grant : Object) (others : List Object) :
    Except String GrantKind := do
  let newer ← movesInto spec vault.grant grant others
  if newer then return .same
  else do
    let older ← movesInto spec grant vault.grant []
    return if older then .behind else .ok

/-- Read and classify the pool's file. -/
def classify (surroundings : Surroundings) (grants : MemberPool) (active : Identity)
    (vault : HealthyVault) : PoolProgram (Option FileText × GrantKind) := do
  let text ← readText grants.pool.configDir
  match parseObject text with
  | none => return (text, .damaged)
  | some grant =>
    if ¬ (spec.usable (some grant) ∧ spec.complete (some grant)) then return (text, .damaged)
    else if (spec.identity (some grant)).hybrid then return (text, .hybrid)
    else
      match (spec.identity (some grant)).id with
      | none => return (text, .damaged)
      | some accountId =>
        if accountId ≠ vault.accountId then return (text, .foreign accountId)
        else if spec.fingerprint grant = spec.fingerprint vault.grant then return (text, .ok)
        else do
          let others ← otherGrants surroundings.listing active grants.members
          let kind ← Program.ofOutcome (kindOfOwn spec vault grant others)
          return (text, kind)

/-- Classify, and once more when `again` asks for it: a writer may be in the midst of the file. -/
def classifySettled (surroundings : Surroundings) (grants : MemberPool) (active : Identity)
    (vault : HealthyVault) (again : GrantKind → Bool) :
    PoolProgram (Option FileText × GrantKind) := do
  let state ← classify spec surroundings grants active vault
  if again state.2 then classify spec surroundings grants active vault else return state

def isBlank : FileText → Bool
  | .json _ => false
  | .other text => trim text = ""

/-- What a restore would drop: a damaged file that is not blank, or content that the vault lacks. -/
def dropsContent (vault : HealthyVault) (poolText : Option FileText) (kind : GrantKind) :
    Except String Bool :=
  if kind = .damaged then .ok (poolText.any fun text => !isBlank text)
  else
    match parseObject poolText with
    | some grant => hasPoolOnlyContent spec grant (some vault.grant)
    | none => .ok false

def backUpHealed (surroundings : Surroundings) (poolDir : String) (poolText : Option FileText) :
    PoolProgram String :=
  match poolText with
  | some text => writeBackup poolDir (fileOf spec poolDir) .heal surroundings.stamp text
  | none => return ""

/-- Keep what would be dropped, unless the file was kept before, then restore the vault. -/
def restore (surroundings : Surroundings) (grants : MemberPool) (active : Identity)
    (vault : HealthyVault) (poolText : Option FileText) (kind : GrantKind) (backedUp : Bool)
    (notes : List String) : PoolProgram (List String) := do
  let drops ← Program.ofOutcome (dropsContent spec vault poolText kind)
  let kept ← keep drops
  -- A write-back may have merged newer tokens into the vault.
  let restored ← readText active.configDir
  Program.writeFile (.credentials grants.pool.configDir) (restored.getD vault.text)
  return notes ++ kept ++ ["restored \"" ++ active.name ++ "\" into " ++ grants.pool.name]
where
  keep (drops : Bool) : PoolProgram (List String) :=
    if ¬ backedUp ∧ drops then do
      let backup ← backUpHealed spec surroundings grants.pool.configDir poolText
      return ["pool " ++ grants.pool.name ++ " credentials held content the vault lacks; " ++
        "kept a 0600 copy at " ++ backup]
    else return []

/-- Repair a pool that holds another account: capture it into its owner or keep a copy. -/
def healForeign (surroundings : Surroundings) (grants : MemberPool) (active : Identity)
    (held : List String) (vault : HealthyVault) (poolText : Option FileText) (poolGrant : Object)
    (accountId : String) : PoolProgram (Attempt grants.members held (List String)) := do
  let owner ← ownerByAccount (accountOf spec) grants.members accountId (some active.name)
  match owner with
  | some ⟨owner, member⟩ =>
    if unheld : owner.configDir ∉ held then return .needLock owner member unheld
    else do
      let outcome ← writeBackToOwner spec surroundings owner poolGrant .capture grants.members
      let captured := if outcome = .written then "captured it into \"" ++ owner.name ++ "\""
        else "left \"" ++ owner.name ++ "\" as it was (" ++ outcome.text ++ ")"
      let notes ← restore spec surroundings grants active vault poolText (.foreign accountId) false
        ["pool " ++ grants.pool.name ++ " held \"" ++ owner.name ++ "\"'s account instead of \"" ++
          active.name ++ "\"; " ++ captured]
      return .done notes
  | none => do
    let backup ← backUpHealed spec surroundings grants.pool.configDir poolText
    let notes ← restore spec surroundings grants active vault poolText (.foreign accountId) true
      ["pool " ++ grants.pool.name ++ " held an account that is not a member; kept a 0600 copy at " ++
        backup]
    return .done notes

/-- Repair the pool's file as it was found under the locks. -/
def repair (surroundings : Surroundings) (grants : MemberPool) (active : Identity)
    (held : List String) (vault : HealthyVault) (poolText : Option FileText) :
    GrantKind → PoolProgram (Attempt grants.members held (List String))
  | .ok => return .done []
  | .same => do
    -- Never restored over: the newer tokens go into the vault.
    let outcome ← writeBackToOwner spec surroundings active ((parseObject poolText).getD []) .same
      grants.members
    return .done ["pool " ++ grants.pool.name ++ " held newer tokens for \"" ++ active.name ++
      "\"; vault write-back: " ++ outcome.text]
  | .foreign accountId =>
    healForeign spec surroundings grants active held vault poolText
      ((parseObject poolText).getD []) accountId
  | .hybrid => do
    let backup ← backUpHealed spec surroundings grants.pool.configDir poolText
    let notes ← restore spec surroundings grants active vault poolText .hybrid true
      ["pool " ++ grants.pool.name ++ " credentials were hybrid (parts disagree on the account); " ++
        "kept a 0600 copy at " ++ backup]
    return .done notes
  | .behind => do
    let notes ← restore spec surroundings grants active vault poolText .behind false
      ["pool " ++ grants.pool.name ++ " was behind the vault of \"" ++ active.name ++
        "\" (a member refresh missed it)"]
    return .done notes
  | .damaged => do
    let notes ← restore spec surroundings grants active vault poolText .damaged false
      ["pool " ++ grants.pool.name ++ " credentials were empty or partial"]
    return .done notes

/-- Decide on the files as they are under the locks. -/
def healHeld (surroundings : Surroundings) (grants : MemberPool) (active : Identity)
    (held : List String) : PoolProgram (Attempt grants.members held (List String)) :=
  withHeldLocks grants.pool.configDir held do
    let vaultText ← readText active.configDir
    match healthyVault spec grants active vaultText with
    | .error notes => return .done notes
    | .ok vault => do
      let state ← classifySettled spec surroundings grants active vault fun kind => kind = .damaged
      repair spec surroundings grants active held vault state.1 state.2

def heal (surroundings : Surroundings) (grants : MemberPool) : PoolProgram (List String) :=
  match activeMember grants.members grants.pool.active with
  | none => return []
  | some active => do
    let vaultText ← readText active.configDir
    match healthyVault spec grants active vaultText with
    | .error notes => return notes
    | .ok vault => do
      let state ← classifySettled spec surroundings grants active vault fun kind => kind ≠ .ok
      if state.2 = .ok then return []
      else
        untilHeld grants.members grants.pool.configDir (healHeld spec surroundings grants active)
          [active.configDir]

end AiSwitcher.GrantFile
