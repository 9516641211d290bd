/-
This file embeds the credential half of a Claude pool swap, `swapCredentialFiles` of
`src/identities/claude-swap.ts`. The pool's live grant is written back to the member
that owns it, then the pool's `.credentials.json` and the `oauthAccount` of its
`.claude.json` become the target's.

The target's credentials are read before any lock is taken and installed at the end.
Whatever is put into the target's vault in between, by a refresh of that member or by
the write-back of the same call, is not what gets installed.
-/

import AiSwitcher.Identities.OauthRefresh

namespace AiSwitcher

open JavaScript Interleaving

/-! ### The write-back -/

def decideWriteBack (pool member : Option OAuthGrant) (poolAccountUuid memberAccountUuid :
    Option String) : WriteBackOutcome :=
  match pool with
  | none => .noneNoLiveCredentials
  | some pool =>
    if poolAccountUuid.isSome ∧ memberAccountUuid.isSome ∧ poolAccountUuid ≠ memberAccountUuid then
      .noneAccountMismatch
    else
      match member with
      | none => .written
      | some member =>
        if pool.accessToken = member.accessToken ∧ pool.refreshToken = member.refreshToken then
          .noneIdentical
        else if Number.lt (member.expiresAt.getD (.finite (-1)))
            (pool.expiresAt.getD (.finite (-1))) then .written
        else .noneMemberNewer

/-- The first member whose own copy has the fingerprint. -/
def findByFingerprint (runtime : TokenRuntime) (fingerprint : String) :
    List Identity → ClaudeProgram (Option String)
  | [] => pure none
  | member :: members => do
    let copy ← readProviderGrantCopy member.configDir
    if copy.map (grantFingerprint runtime) = some fingerprint then return some member.name
    else findByFingerprint runtime fingerprint members

/-- The first member whose `.claude.json` names the account. -/
def findByUuid (poolUuid : String) : List Identity → ClaudeProgram (Option String)
  | [] => pure none
  | member :: members => do
    let text ← Program.readFile (.claudeJson member.configDir)
    if accountUuid (parseObject text) = some poolUuid then return some member.name
    else findByUuid poolUuid members

def inferOwner (runtime : TokenRuntime) (members : List Identity) (poolGrant : Option OAuthGrant)
    (poolUuid : Option String) : ClaudeProgram (Option String) :=
  match poolGrant with
  | none => pure none
  | some grant => do
    let byFingerprint ← findByFingerprint runtime (grantFingerprint runtime grant) members
    match byFingerprint, poolUuid with
    | some name, _ => return some name
    | none, some uuid => findByUuid uuid members
    | none, none => return none

/-- The recorded active member, else the member whose grant or account the pool holds. -/
def findOwner (runtime : TokenRuntime) (members : List Identity) (activeName : Option String)
    (poolGrant : Option OAuthGrant) (poolUuid : Option String) :
    ClaudeProgram (Option Identity × List String) :=
  match activeMember members activeName, poolGrant with
  | some owner, _ => pure (some owner, [])
  | none, none => pure (none, [])
  | none, some grant => do
    let inferred ← inferOwner runtime members (some grant) poolUuid
    let owner := inferred.bind fun name => members.find? fun member => member.name == name
    return (owner, (inferred.filter (· ≠ "")).toList.map fun name =>
      "pool had no recorded active account; live credentials matched \"" ++ name ++ "\"")

/-- Write the pool's grant back to its owner, under the owner's lock, when it is newer. -/
def writeBackToOwner (owner : Option Identity) (poolCredText : Option FileText)
    (poolGrant : Option OAuthGrant) (poolUuid : Option String) :
    ClaudeProgram WriteBackOutcome :=
  match owner with
  | none => pure (if poolGrant.isSome then .noneUnknownOwner else .noneNoLiveCredentials)
  | some owner => do
    let ownerGrant ← readProviderGrantCopy owner.configDir
    let ownerJson ← Program.readFile (.claudeJson owner.configDir)
    let writeBack := decideWriteBack poolGrant ownerGrant poolUuid
      (accountUuid (parseObject ownerJson))
    match writeBack, poolCredText with
    | .written, some text => do
      withOauthRefreshLock owner.configDir (Program.writeFile (.credentials owner.configDir) text)
      return .written
    | _, _ => return writeBack

/-- A live grant that no member could be found for is kept in a backup. -/
def backUpUnattributed (poolDir : String) (writeBack : WriteBackOutcome)
    (poolCredText : Option FileText) : ClaudeProgram (List String) :=
  match poolCredText with
  | none => pure []
  | some text =>
    if writeBack = .noneUnknownOwner ∨ writeBack = .noneAccountMismatch then do
      Program.writeFile (.preSwapBackup poolDir) text
      return ["live pool credentials could not be attributed to a member; kept a 0600 copy at " ++
        credentialsPath poolDir ++ ".pre-swap.bak"]
    else pure []

/-! ### The swap -/

/-- Install the target's credentials and account; when the account cannot be written the previous
credentials are put back. -/
def installTarget (poolDir targetName : String) (targetCredText : FileText)
    (targetAccount : Option Json) (poolCredText : Option FileText) (poolClaudeJson : Object) :
    ClaudeProgram (List String) := do
  Program.writeFile (.credentials poolDir) targetCredText
  let claudeJson := match targetAccount with
    | some account => poolClaudeJson.set "oauthAccount" account
    | none => poolClaudeJson.delete "oauthAccount"
  let notes := match targetAccount with
    | some _ => []
    | none => ["account \"" ++ targetName ++ "\" has no oauthAccount in its .claude.json; " ++
        "the pool's previous oauthAccount was removed"]
  let failed := "could not update " ++ claudeJsonPath poolDir
  .write (.claudeJson poolDir) (stringify claudeJson) fun written =>
    if written then .done notes
    else
      match poolCredText with
      | some text => .write (.credentials poolDir) text fun _ => .fail failed
      | none => .fail failed

/-- The part of the swap under the pool's locks. -/
def swapLocked (runtime : TokenRuntime) (pool : PoolIdentity) (members : List Identity)
    (target : Identity) (targetCredText : FileText) (targetGrant : OAuthGrant)
    (targetAccount : Option Json) : ClaudeProgram SwapResult := do
  let poolCredText ← Program.readFile (.credentials pool.configDir)
  let poolGrant ← readProviderGrantCopy pool.configDir
  let poolClaudeJsonText ← Program.readFile (.claudeJson pool.configDir)
  let poolClaudeJson := (parseObject poolClaudeJsonText).getD []
  let poolUuid := accountUuid (some poolClaudeJson)
  let credsInPlace : Bool := match poolGrant with
    | some grant => grantFingerprint runtime grant = grantFingerprint runtime targetGrant ∧
        grant.accessToken = targetGrant.accessToken
    | none => false
  if pool.active = some target.name ∧ credsInPlace then
    return {
      pool := pool.name, fromName := pool.active, toName := target.name, noop := true
      writeBack := .noneIdentical, notes := [] }
  else do
    let (owner, ownerNotes) ← findOwner runtime members pool.active poolGrant poolUuid
    let writeBack ← writeBackToOwner owner poolCredText poolGrant poolUuid
    let backupNotes ← backUpUnattributed pool.configDir writeBack poolCredText
    let accountNotes ← installTarget pool.configDir target.name targetCredText targetAccount
      poolCredText poolClaudeJson
    return {
      pool := pool.name, fromName := pool.active, toName := target.name, noop := false, writeBack
      notes := ownerNotes ++ backupNotes ++ accountNotes }

/-- The swap once it has the text of the target's credentials. -/
def swapWithText (runtime : TokenRuntime) (pool : PoolIdentity) (members : List Identity)
    (target : Identity) (targetCredText : Option FileText) : ClaudeProgram SwapResult := do
  let targetGrant ← readProviderGrantCopy target.configDir
  match targetCredText, targetGrant with
  | some text, some grant => do
    let targetClaudeJson ← Program.readFile (.claudeJson target.configDir)
    let targetAccount := (parseObject targetClaudeJson).bind fun fields => fields.get "oauthAccount"
    withClaudeLocks pool.configDir
      (swapLocked runtime pool members target text grant targetAccount)
  | _, _ =>
    .fail ("Account \"" ++ target.name ++ "\" has no usable Claude login (no credentials in " ++
      target.configDir ++ "); run \"claude /login\" under that identity first.")

def swapCredentialFiles (runtime : TokenRuntime) (pool : PoolIdentity) (members : List Identity)
    (target : Identity) : ClaudeProgram SwapResult := do
  let targetCredText ← Program.readFile (.credentials target.configDir)
  swapWithText runtime pool members target targetCredText

/-! ### What a swap installs -/

abbrev ClaudeState := State ClaudeFile FileText ClaudeLock (Option Nat)

abbrev ClaudeEvent := Event ClaudeFile FileText (Option Nat)

/-- The grant in a folder's credentials. -/
def grantIn (state : ClaudeState) (configDir : String) : Option OAuthGrant :=
  readNativeAnthropic (state.files (.credentials configDir))

/-- An action that does not put another grant into a folder's credentials. -/
def KeepsGrant (configDir : String) : ClaudeEvent → Prop
  | .wrote _ file before after =>
      file = .credentials configDir →
        readNativeAnthropic (some after) = readNativeAnthropic before
  | .read .. => True

instance (configDir : String) : DecidablePred (KeepsGrant configDir) := fun event =>
  match event with
  | .wrote _ file before after => inferInstanceAs
      (Decidable (file = .credentials configDir →
        readNativeAnthropic (some after) = readNativeAnthropic before))
  | .read .. => .isTrue trivial

/-- Since `origin`, unless some action put another grant into it, the folder still holds `grant`. -/
def HeldSince (origin : List ClaudeEvent) (configDir : String) (grant : Option OAuthGrant)
    (state : ClaudeState) : Prop :=
  ∃ events, state.trace = events ++ origin ∧
    ((∀ event ∈ events, KeepsGrant configDir event) → grantIn state configDir = grant)

section Swap

variable {origin : List ClaudeEvent} {configDir : String} {grant : Option OAuthGrant}
  {state : ClaudeState}

theorem HeldSince.look (holds : HeldSince origin configDir grant state) (thread : Option Nat)
    (file : ClaudeFile) : HeldSince origin configDir grant (state.look thread file) := by
  obtain ⟨events, trace, keeps⟩ := holds
  refine ⟨.read thread file (state.files file) :: events, congrArg (List.cons _) trace, ?_⟩
  exact fun all => keeps (List.forall_mem_cons.mp all).2

theorem HeldSince.put (holds : HeldSince origin configDir grant state) (thread : Option Nat)
    (file : ClaudeFile) (content : FileText) :
    HeldSince origin configDir grant (state.put thread file content) := by
  obtain ⟨events, trace, keeps⟩ := holds
  refine ⟨.wrote thread file (state.files file) content :: events,
    congrArg (List.cons _) trace, fun all => ?_⟩
  obtain ⟨last, all⟩ := List.forall_mem_cons.mp all
  show readNativeAnthropic (Function.update state.files file (some content) _) = grant
  by_cases same : file = .credentials configDir
  · rw [← keeps all, grantIn, same, Function.update_self]
    exact same ▸ last same
  · rw [Function.update_of_ne (Ne.symm same)]
    exact keeps all

theorem HeldSince.of_same {other : ClaudeState} (holds : HeldSince origin configDir grant state)
    (files : other.files = state.files) (trace : other.trace = state.trace) :
    HeldSince origin configDir grant other := by
  obtain ⟨events, whole, keeps⟩ := holds
  refine ⟨events, trace ▸ whole, fun all => ?_⟩
  rw [grantIn, files]
  exact keeps all

/-- The pool's lock is held, and the target's vault is as the swap read it unless an action of the
run has changed it. -/
structure Locked (origin : List ClaudeEvent) (pool target : String) (grant : Option OAuthGrant)
    (state : ClaudeState) : Prop where
  vault : HeldSince origin target grant state
  lock : state.Holds none (.oauthRefresh pool)

theorem stable_heldSince :
    Stable (Interference underRefreshLock) (HeldSince origin configDir grant) := by
  intro before after interference holds
  cases interference with
  | idle => exact holds
  | look process file => exact holds.look _ _
  | put process file content permitted => exact holds.put _ _ _
  | take process lock free => exact holds.of_same rfl rfl
  | free process lock => exact holds.of_same rfl rfl

/-- No other program changes which locks the swap holds. -/
theorem holds_of_interference {before after : ClaudeState}
    (interference : Interference underRefreshLock before after) :
    after.Holds none = before.Holds none := by
  cases interference with
  | idle => rfl
  | look process file => rfl
  | put process file content permitted => rfl
  | take process lock free =>
    rw [State.holds_take free]
    simp
  | free process lock =>
    rw [State.holds_free]
    simp

variable {pool target : String}

theorem stable_locked :
    Stable (Interference underRefreshLock) (Locked origin pool target grant) := by
  intro before after interference holds
  refine ⟨stable_heldSince before after interference holds.vault, ?_⟩
  rw [holds_of_interference interference]
  exact holds.lock

/-- The swap has the lock, and the pool holds what it installed. -/
structure Installed (origin : List ClaudeEvent) (pool target : String) (grant : Option OAuthGrant)
    (text : FileText) (state : ClaudeState) : Prop where
  locked : Locked origin pool target grant state
  installed : state.files (.credentials pool) = some text

variable {text : FileText}

theorem stable_installed :
    Stable (Interference underRefreshLock) (Installed origin pool target grant text) := by
  intro before after interference holds
  refine ⟨stable_locked before after interference holds.locked, ?_⟩
  cases interference with
  | idle => exact holds.installed
  | look process file => exact holds.installed
  | put process file content permitted =>
    refine (Function.update_of_ne (fun same => ?_) _ _).trans holds.installed
    -- Another program would need the pool's lock to write its credentials.
    subst same
    have mine : before.holders (.oauthRefresh pool) = some none := holds.locked.lock
    have theirs : before.holders (.oauthRefresh pool) = some (some process) := permitted
    rw [mine] at theirs
    cases theirs
  | take process lock free => exact holds.installed
  | free process lock => exact holds.installed

theorem Locked.look (holds : Locked origin pool target grant state) (file : ClaudeFile) :
    Locked origin pool target grant (state.look none file) :=
  ⟨holds.vault.look _ _, holds.lock⟩

theorem Locked.put (holds : Locked origin pool target grant state) (file : ClaudeFile)
    (content : FileText) : Locked origin pool target grant (state.put none file content) :=
  ⟨holds.vault.put _ _ _, holds.lock⟩

/-- The parts of the swap before the installation. -/
abbrev KeepsLocked {Result : Type} (origin : List ClaudeEvent) (pool target : String)
    (grant : Option OAuthGrant) (program : ClaudeProgram Result) : Prop :=
  program.Keeps (Interference underRefreshLock) none (Locked origin pool target grant)

theorem keepsLocked_readFile (file : ClaudeFile) :
    KeepsLocked origin pool target grant (Program.readFile file) :=
  Program.keeps_readFile stable_locked fun _ holds => holds.look file

theorem keepsLocked_writeFile (file : ClaudeFile) (content : FileText) :
    KeepsLocked origin pool target grant (Program.writeFile file content) :=
  Program.keeps_writeFile stable_locked fun _ holds => holds.put file content

theorem keepsLocked_readProviderGrantCopy (dir : String) :
    KeepsLocked origin pool target grant (readProviderGrantCopy dir) :=
  Program.keeps_bind (keepsLocked_readFile _) fun _ => Program.keeps_done _

theorem keepsLocked_findByFingerprint (runtime : TokenRuntime) (fingerprint : String)
    (members : List Identity) :
    KeepsLocked origin pool target grant (findByFingerprint runtime fingerprint members) := by
  induction members with
  | nil => exact Program.keeps_done _
  | cons member members inductionHypothesis =>
    refine Program.keeps_bind (keepsLocked_readProviderGrantCopy _) fun copy => ?_
    split_ifs
    · exact Program.keeps_done _
    · exact inductionHypothesis

theorem keepsLocked_findByUuid (uuid : String) (members : List Identity) :
    KeepsLocked origin pool target grant (findByUuid uuid members) := by
  induction members with
  | nil => exact Program.keeps_done _
  | cons member members inductionHypothesis =>
    refine Program.keeps_bind (keepsLocked_readFile _) fun text => ?_
    split_ifs
    · exact Program.keeps_done _
    · exact inductionHypothesis

theorem keepsLocked_findOwner (runtime : TokenRuntime) (members : List Identity)
    (activeName : Option String) (poolGrant : Option OAuthGrant) (poolUuid : Option String) :
    KeepsLocked origin pool target grant
      (findOwner runtime members activeName poolGrant poolUuid) := by
  unfold findOwner
  cases activeMember members activeName with
  | some owner => exact Program.keeps_done _
  | none =>
    cases poolGrant with
    | none => exact Program.keeps_done _
    | some live =>
      refine Program.keeps_bind ?_ fun inferred => Program.keeps_done _
      refine Program.keeps_bind (keepsLocked_findByFingerprint _ _ _) fun byFingerprint => ?_
      cases byFingerprint with
      | some name => exact Program.keeps_done _
      | none =>
        cases poolUuid with
        | none => exact Program.keeps_done _
        | some uuid => exact keepsLocked_findByUuid uuid members

/-- The owner's lock is another lock than the pool's: that one is taken. -/
theorem keepsLocked_withOauthRefreshLock {Result : Type} (dir : String)
    {program : ClaudeProgram Result} (body : KeepsLocked origin pool target grant program) :
    KeepsLocked origin pool target grant (withOauthRefreshLock dir program) := by
  intro state holds
  by_cases same : dir = pool
  · refine Program.wp_acquire stable_locked holds (fun after holds free => ?_) fun _ holds => holds
    have mine : after.holders (.oauthRefresh pool) = some none := holds.lock
    rw [same, mine] at free
    cases free
  · have other : ClaudeLock.oauthRefresh pool ≠ .oauthRefresh dir := by
      intro equal
      exact same (ClaudeLock.oauthRefresh.inj equal).symm
    refine Program.wp_withLock stable_locked holds (fun after holds free => ?_)
      (fun _ => @stable_locked origin grant pool target) (fun _ after holds => ?_)
      fun _ holds => holds
    · refine body _ ⟨holds.vault.of_same rfl rfl, ?_⟩
      rw [State.holds_take free]
      exact Or.inr holds.lock
    · refine ⟨holds.vault.of_same rfl rfl, ?_⟩
      rw [State.holds_free]
      exact ⟨fun both => other both.2, holds.lock⟩

theorem keepsLocked_writeBackToOwner (owner : Option Identity) (poolCredText : Option FileText)
    (poolGrant : Option OAuthGrant) (poolUuid : Option String) :
    KeepsLocked origin pool target grant
      (writeBackToOwner owner poolCredText poolGrant poolUuid) := by
  cases owner with
  | none => exact Program.keeps_done _
  | some owner =>
    refine Program.keeps_bind (keepsLocked_readProviderGrantCopy _) fun ownerGrant => ?_
    refine Program.keeps_bind (keepsLocked_readFile _) fun ownerJson => ?_
    dsimp only
    split
    · refine Program.keeps_bind ?_ fun _ => Program.keeps_done _
      exact keepsLocked_withOauthRefreshLock _ (keepsLocked_writeFile _ _)
    · exact Program.keeps_done _

theorem keepsLocked_backUpUnattributed (poolDir : String) (writeBack : WriteBackOutcome)
    (poolCredText : Option FileText) :
    KeepsLocked origin pool target grant
      (backUpUnattributed poolDir writeBack poolCredText) := by
  cases poolCredText with
  | none => exact Program.keeps_done _
  | some text =>
    unfold backUpUnattributed
    dsimp only
    split_ifs
    · exact Program.keeps_bind (keepsLocked_writeFile _ _) fun _ => Program.keeps_done _
    · exact Program.keeps_done _

/-- How the part under the locks ends: a swap that was made has installed the text. -/
def Swapped (origin : List ClaudeEvent) (pool target : String) (grant : Option OAuthGrant)
    (text : FileText) (outcome : Except String SwapResult) (state : ClaudeState) : Prop :=
  Locked origin pool target grant state ∧
    ∀ result, outcome = .ok result → result.noop = false →
      state.files (.credentials pool) = some text

theorem wp_installTarget {poolDir targetName : String} (targetAccount : Option Json)
    (poolCredText : Option FileText) (poolClaudeJson : Object)
    (holds : Locked origin poolDir target grant state) :
    (installTarget poolDir targetName text targetAccount poolCredText poolClaudeJson).wp
      (Interference underRefreshLock) none
      (fun outcome state => Locked origin poolDir target grant state ∧
        ∀ notes, outcome = .ok notes → state.files (.credentials poolDir) = some text) state := by
  refine Program.wp_bind_writeFile stable_locked holds (fun after holds => ?_)
    fun message after holds => ?_
  · have installed : Installed origin poolDir target grant text
        (after.put none (.credentials poolDir) text) :=
      ⟨holds.put _ _, State.files_put_same _ _ _ _⟩
    refine Program.wp_write stable_installed installed (fun after installed => ?_)
      fun after installed => ?_
    · have other : ClaudeFile.credentials poolDir ≠ .claudeJson poolDir := fun same => nomatch same
      refine ⟨installed.locked.put _ _, fun _ _ => ?_⟩
      exact (State.files_put_of_ne _ _ other _).trans installed.installed
    · -- The account could not be written: the swap ends with an error.
      cases poolCredText with
      | none => exact ⟨installed.locked, fun _ same => nomatch same⟩
      | some previous =>
        exact Program.wp_write stable_installed installed
          (fun after installed => ⟨installed.locked.put _ _, fun _ same => nomatch same⟩)
          fun after installed => ⟨installed.locked, fun _ same => nomatch same⟩
  · exact ⟨holds, fun _ same => nomatch same⟩

theorem wp_swapLocked (runtime : TokenRuntime) (pool : PoolIdentity) (members : List Identity)
    (targetIdentity : Identity) (targetGrant : OAuthGrant) (targetAccount : Option Json)
    (holds : Locked origin pool.configDir target grant state) :
    (swapLocked runtime pool members targetIdentity text targetGrant targetAccount).wp
      (Interference underRefreshLock) none
      (Swapped origin pool.configDir target grant text) state := by
  have failed : ∀ message after, Locked origin pool.configDir target grant after →
      Swapped origin pool.configDir target grant text (.error message) after :=
    fun _ _ holds => ⟨holds, fun _ same => nomatch same⟩
  refine Program.wp_bind_keeps (keepsLocked_readFile _) holds (fun poolCredText _ holds => ?_) failed
  refine Program.wp_bind_keeps (keepsLocked_readProviderGrantCopy _) holds
    (fun poolGrant _ holds => ?_) failed
  refine Program.wp_bind_keeps (keepsLocked_readFile _) holds (fun poolJson _ holds => ?_) failed
  dsimp only
  split_ifs with inPlace
  · exact ⟨holds, fun result same swapped => by cases same; cases swapped⟩
  · refine Program.wp_bind_keeps (keepsLocked_findOwner _ _ _ _ _) holds (fun owner _ holds => ?_)
      failed
    refine Program.wp_bind_keeps (keepsLocked_writeBackToOwner _ _ _ _) holds
      (fun writeBack _ holds => ?_) failed
    refine Program.wp_bind_keeps (keepsLocked_backUpUnattributed _ _ _) holds
      (fun backupNotes _ holds => ?_) failed
    refine Program.wp_bind (Program.wp_mono (fun outcome after ended => ?_) _ _
      (wp_installTarget targetAccount poolCredText _ holds))
    cases outcome with
    | ok notes => exact ⟨ended.1, fun _ _ _ => ended.2 notes rfl⟩
    | error message => exact failed message after ended.1

theorem stable_swapped (outcome : Except String SwapResult) :
    Stable (Interference underRefreshLock) (Swapped origin pool target grant text outcome) := by
  intro before after interference ⟨locked, swapped⟩
  refine ⟨stable_locked before after interference locked, fun result same real => ?_⟩
  exact (stable_installed before after interference ⟨locked, swapped result same real⟩).installed

/-- What holds when the swap returns, its locks released. -/
def Returned (origin : List ClaudeEvent) (pool target : String) (grant : Option OAuthGrant)
    (text : Option FileText) (outcome : Except String SwapResult) (state : ClaudeState) : Prop :=
  HeldSince origin target grant state ∧
    ∀ result, outcome = .ok result → result.noop = false → state.files (.credentials pool) = text

theorem wp_swapWithText (runtime : TokenRuntime) (pool : PoolIdentity) (members : List Identity)
    (targetIdentity : Identity) (text : Option FileText)
    (holds : HeldSince origin target grant state) :
    (swapWithText runtime pool members targetIdentity text).wp (Interference underRefreshLock) none
      (Returned origin pool.configDir target grant text) state := by
  have failed : ∀ message after, HeldSince origin target grant after →
      Returned origin pool.configDir target grant text (.error message) after :=
    fun _ _ holds => ⟨holds, fun _ same => nomatch same⟩
  have reads : ∀ file, (Program.readFile file).Keeps (Interference underRefreshLock) none
      (HeldSince origin target grant) :=
    fun file => Program.keeps_readFile stable_heldSince fun _ holds => holds.look none file
  refine Program.wp_bind_keeps (Program.keeps_bind (reads _) fun _ => Program.keeps_done _) holds
    (fun targetGrant _ holds => ?_) failed
  cases text with
  | none => exact failed _ _ holds
  | some text =>
    cases targetGrant with
    | none => exact failed _ _ holds
    | some targetGrant =>
      refine Program.wp_bind_keeps (reads _) holds (fun json _ holds => ?_) failed
      -- The outer lock protects the pool's credentials while the inner one is released.
      refine Program.wp_withLock stable_heldSince holds (fun after holds free => ?_)
        (@stable_swapped origin grant pool.configDir target text) (fun outcome after ended => ?_)
        fun _ holds => failed _ _ holds
      · have locked : Locked origin pool.configDir target grant
            (after.take none (.oauthRefresh pool.configDir)) := by
          refine ⟨holds.of_same rfl rfl, ?_⟩
          rw [State.holds_take free]
          exact Or.inl ⟨rfl, rfl⟩
        refine Program.wp_withLock stable_locked locked (fun after locked free => ?_)
          (@stable_swapped origin grant pool.configDir target text)
          (fun outcome after ended => ?_) fun after locked => ⟨locked, fun _ same => nomatch same⟩
        · refine wp_swapLocked runtime pool members targetIdentity targetGrant _
            ⟨locked.vault.of_same rfl rfl, ?_⟩
          rw [State.holds_take free]
          exact Or.inr locked.lock
        · refine ⟨⟨ended.1.vault.of_same rfl rfl, ?_⟩, ended.2⟩
          rw [State.holds_free]
          exact ⟨fun both => (nomatch both.2), ended.1.lock⟩
      · exact ⟨ended.1.vault.of_same rfl rfl, ended.2⟩

end Swap

/-! ### The swap among refreshes -/

abbrev ClaudeSystem := System ClaudeFile FileText ClaudeLock Nat SwapResult RefreshOutcome

/-- No action since `origin` put another grant into the folder's credentials. -/
def UndisturbedSince (origin : List ClaudeEvent) (configDir : String) (state : ClaudeState) :
    Prop :=
  ∃ events, state.trace = events ++ origin ∧ ∀ event ∈ events, KeepsGrant configDir event

/-- A swap that completes, not as a no-op, among any number of refreshes. Some of these may be under
way at `start`, when the swap's first action, which leads to `first`, reads the target's
credentials; `after` is right after the swap's last action. -/
structure SwapRun (runtime : TokenRuntime) (pool : PoolIdentity) (members : List Identity)
    (target : Identity) (start first after : ClaudeSystem) (result : SwapResult) : Prop where
  begins : ∃ initial : ClaudeSystem,
    initial.main = swapCredentialFiles runtime pool members target ∧
      (∀ process, ∃ member run,
        initial.others process = refreshIdentityOAuthGrant runtime member run) ∧
      Relation.ReflTransGen System.OtherStep initial start
  reads : start.MainStep first
  completes : ∃ before, first.Reaches before ∧ before.Completes after (.ok result)
  real : result.noop = false

/-- The refreshes write only what they have locked, and the swap has not acted yet. -/
theorem SwapRun.begun {runtime : TokenRuntime} {pool : PoolIdentity} {members : List Identity}
    {target : Identity} {start first after : ClaudeSystem} {result : SwapResult}
    (run : SwapRun runtime pool members target start first after result) :
    start.Disciplined underRefreshLock ∧
      start.main = swapCredentialFiles runtime pool members target := by
  obtain ⟨initial, swap, refreshes, underWay⟩ := run.begins
  clear run
  induction underWay with
  | refl =>
    refine ⟨fun process => ?_, swap⟩
    obtain ⟨member, options, same⟩ := refreshes process
    rw [same]
    exact disciplined_refreshIdentityOAuthGrant runtime member options
  | tail _ step inductionHypothesis =>
    obtain ⟨process, program, -, -, main⟩ := id step
    exact ⟨inductionHypothesis.1.step (Or.inr step), main.trans inductionHypothesis.2⟩

/-- What the pool holds in the end is the grant that the target's vault held at the swap's first
action. So it is the vault's grant in every run in which no action in between, by a refresh or by
the swap's own write-back, put another grant into that vault. -/
theorem swapCredentialFiles_installs (runtime : TokenRuntime) (pool : PoolIdentity)
    (members : List Identity) (target : Identity) {start first after : ClaudeSystem}
    {result : SwapResult} (run : SwapRun runtime pool members target start first after result) :
    grantIn after.state pool.configDir = grantIn start.state target.configDir ∧
      (UndisturbedSince first.state.trace target.configDir after.state →
        grantIn after.state pool.configDir = grantIn after.state target.configDir) := by
  obtain ⟨disciplined, main⟩ := run.begun
  have disciplined := disciplined.step (Or.inl run.reads)
  -- The first action of the swap reads the target's credentials.
  have firstMain : first.main = swapWithText runtime pool members target
      (start.state.files (.credentials target.configDir)) ∧
      first.state = start.state.look none (.credentials target.configDir) := by
    obtain ⟨step, -⟩ := run.reads
    rw [main] at step
    generalize first.main = next, first.state = state at step
    cases step
    exact ⟨rfl, rfl⟩
  have held : HeldSince first.state.trace target.configDir
      (grantIn start.state target.configDir) first.state := by
    refine ⟨[], rfl, fun _ => ?_⟩
    rw [firstMain.2]
    rfl
  have ends := wp_swapWithText runtime pool members target
    (start.state.files (.credentials target.configDir)) held
  rw [← firstMain.1] at ends
  obtain ⟨before, reaches, completes⟩ := run.completes
  obtain ⟨vault, installed⟩ := System.wp_completes disciplined ends reaches completes
  have poolGrant : grantIn after.state pool.configDir = grantIn start.state target.configDir :=
    congrArg readNativeAnthropic (installed result rfl run.real)
  refine ⟨poolGrant, fun ⟨events, trace, all⟩ => ?_⟩
  obtain ⟨sinceEvents, sinceTrace, keeps⟩ := vault
  have same : sinceEvents = events := List.append_cancel_right (sinceTrace.symm.trans trace)
  rw [poolGrant, keeps (same ▸ all)]

/-! ### A stale install -/

namespace StaleInstall

def runtime : TokenRuntime where
  decodeJwtPayload _ := none
  digest token := token
  dateParse _ := none
  textOf _ := ""

def work : Identity where
  name := "work"
  configDir := "/work"

def pool : PoolIdentity where
  name := "claude"
  configDir := "/claude"
  active := some "work"

/-- A refresh that finds nothing to do. -/
def idleRefresh : RefreshRun where
  force := false
  revokedFingerprint := none
  expectedAccessToken := none
  poolsHolding := []
  poolsHoldingLater := []
  piGrant := none
  shouldAttempt _ := false
  tokenEndpoint _ := .error "unused"

def credentials (accessToken refreshToken : String) (expiresAt : ℤ) : FileText :=
  .json (.obj [("claudeAiOauth", .obj [("accessToken", .str accessToken),
    ("refreshToken", .str refreshToken), ("expiresAt", .num (.finite expiresAt))])])

/-- The vault's credentials are `a1`; the pool's credentials are `live`. -/
def state (live : Option FileText) : ClaudeState where
  files
    | .credentials "/work" => some (credentials "a1" "r1" 1)
    | .credentials "/claude" => live
    | _ => none
  holders _ := none
  trace := []

def others : ℕ → ClaudeProgram RefreshOutcome :=
  fun _ => refreshIdentityOAuthGrant runtime work idleRefresh

/-- The swap after its first action, that reads the vault. -/
def rest : ClaudeProgram SwapResult :=
  swapWithText runtime pool [work] work (some (credentials "a1" "r1" 1))

/-- The swap running alone from there. -/
def alone (live : Option FileText) : Except String SwapResult × ClaudeState :=
  rest.execute none ((state live).look none (.credentials "/work"))

theorem swapRun (live : Option FileText) {result : SwapResult}
    (returns : (alone live).1 = .ok result) (real : result.noop = false) :
    ∃ start first after, SwapRun runtime pool [work] work start first after result ∧
      first.state = (state live).look none (.credentials "/work") ∧
      after.state = (alone live).2 := by
  obtain ⟨before, after, reaches, completes, ended⟩ := System.exists_completes rest others
    ((state live).look none (.credentials "/work")) rfl
  refine ⟨⟨swapCredentialFiles runtime pool [work] work, others, state live⟩,
    ⟨rest, others, (state live).look none (.credentials "/work")⟩, after, ?_, rfl, ended⟩
  refine ⟨⟨_, rfl, fun _ => ⟨work, idleRefresh, rfl⟩, .refl⟩, ⟨.read _ _ _, rfl⟩,
    ⟨before, reaches, returns ▸ completes⟩, real⟩

end StaleInstall

open StaleInstall in
/-- The pool has the newer grant of the member that is active already. The swap to that member writes
it back into the vault, and installs what the vault held before. -/
theorem swapCredentialFiles_installs_superseded :
    ¬ ∀ (runtime : TokenRuntime) (pool : PoolIdentity) (members : List Identity)
      (target : Identity) (start first after : ClaudeSystem) (result : SwapResult),
      SwapRun runtime pool members target start first after result →
      grantIn after.state pool.configDir = grantIn after.state target.configDir := by
  intro claimed
  obtain ⟨start, first, after, run, -, ended⟩ :=
    swapRun (some (credentials "a2" "r2" 2)) rfl rfl
  have installed := claimed _ _ _ _ _ _ _ _ run
  rw [ended] at installed
  revert installed
  decide +kernel

open StaleInstall in
/-- Into an empty pool the vault's grant is installed. -/
theorem swapCredentialFiles_installs_intoEmptyPool :
    ∃ start first after result, SwapRun runtime pool [work] work start first after result ∧
      UndisturbedSince first.state.trace work.configDir after.state ∧
      grantIn after.state pool.configDir = grantIn after.state work.configDir := by
  obtain ⟨start, first, after, run, begun, ended⟩ := swapRun none rfl rfl
  have undisturbed : UndisturbedSince first.state.trace work.configDir after.state := by
    rw [begun, ended]
    refine ⟨(alone none).2.trace.take 9, rfl, ?_⟩
    decide +kernel
  exact ⟨start, first, after, _, run, undisturbed,
    (swapCredentialFiles_installs runtime pool [work] work run).2 undisturbed⟩

end AiSwitcher
