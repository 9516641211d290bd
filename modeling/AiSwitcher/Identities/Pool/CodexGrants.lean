/-
This file proves what the calls of the Codex pool adapter keep of the logins they
replace. Whatever a session has left in the pool's file when a call looks at it, the
call puts it into its owner's vault or into a backup before it replaces the file,
except for a file that `heal` takes for damaged, and for what a session writes after
the call has looked.
-/

import AiSwitcher.Identities.Pool.CodexAdapter

namespace AiSwitcher.Codex

open JavaScript Interleaving Pool

/-! ### The merged file -/

section Merged

variable {runtime : TokenRuntime} {ownerAuth : Option Object} {poolAuth : Object}

theorem exists_accessToken {auth : Option Object} (tokens : hasCodexTokens auth = true) :
    ∃ token, accessToken auth = some (.str token) ∧ trim token ≠ "" := by
  obtain ⟨usable, same⟩ := Option.isSome_iff_exists.mp tokens
  obtain ⟨value, found, isUsable⟩ := Option.bind_eq_some_iff.mp same
  cases value with
  | str text =>
    refine ⟨text, found, fun blank => ?_⟩
    rw [usableToken, if_pos blank] at isUsable
    cases isUsable
  | _ => cases isUsable

theorem hasCodexTokens_of_accessToken {auth : Option Object} {token : String}
    (found : accessToken auth = some (.str token)) (usable : trim token ≠ "") :
    hasCodexTokens auth = true := by
  rw [hasCodexTokens, found, Option.bind_some, usableToken, if_neg usable]
  rfl

theorem get_tokens_mergedAuth :
    (mergedAuth ownerAuth poolAuth).get "tokens" =
      some (.obj ((ownTokens ownerAuth).spread (tokensOf (some poolAuth)))) := by
  unfold mergedAuth
  cases poolAuth.get "last_refresh" <;> simp

/-- The tokens the pool's file has are those of the merged file. -/
theorem get_tokensOf_mergedAuth {key : String} {token : Json}
    (found : (tokensOf (some poolAuth)).get key = some token) :
    (tokensOf (parseObject (some (stringify (mergedAuth ownerAuth poolAuth))))).get key =
      some token.written := by
  rw [parseObject_stringify, tokensOf, Option.bind_some, Object.get_written, get_tokens_mergedAuth,
    Option.map_some, Json.written_obj, Option.bind_some]
  show Members.get (List.map _ _) key = _
  rw [Object.get_written, Members.get_spread, found]
  rfl

theorem hasCodexTokens_mergedAuth (tokens : hasCodexTokens (some poolAuth) = true) :
    hasCodexTokens (parseObject (some (stringify (mergedAuth ownerAuth poolAuth)))) = true := by
  obtain ⟨token, found, usable⟩ := exists_accessToken tokens
  exact hasCodexTokens_of_accessToken (get_tokensOf_mergedAuth found) usable

theorem holdsTokensOf_mergedAuth (tokens : hasCodexTokens (some poolAuth) = true) :
    HoldsTokensOf (parseObject (some (stringify (mergedAuth ownerAuth poolAuth))))
      (some poolAuth) := by
  obtain ⟨token, found, -⟩ := exists_accessToken tokens
  refine ⟨?_, fun refresh has => ?_⟩
  · rw [found, accessToken, get_tokensOf_mergedAuth found]
    rfl
  · obtain ⟨value, found, isText⟩ := Option.bind_eq_some_iff.mp has
    rw [refreshToken, get_tokensOf_mergedAuth found, Option.bind_some, Json.asString?_written,
      isText]

theorem lastRefresh_mergedAuth :
    ((parseObject (some (stringify (mergedAuth ownerAuth poolAuth)))).bind
        fun fields => fields.get "last_refresh").bind Json.asString? =
      ((poolAuth.get "last_refresh").or (ownerAuth.bind fun fields => fields.get "last_refresh")).bind
        Json.asString? := by
  rw [parseObject_stringify, Option.bind_some, Object.get_written]
  have read : (mergedAuth ownerAuth poolAuth).get "last_refresh" =
      (poolAuth.get "last_refresh").or
        (ownerAuth.bind fun fields => fields.get "last_refresh") := by
    unfold mergedAuth
    cases poolAuth.get "last_refresh" with
    | some value => simp
    | none =>
      show (Members.set _ "tokens" _).get "last_refresh" = _
      rw [Members.get_set, if_neg (by decide)]
      cases ownerAuth <;> rfl
  rw [read]
  cases (poolAuth.get "last_refresh").or (ownerAuth.bind fun fields => fields.get "last_refresh") with
  | none => rfl
  | some value => exact Json.asString?_written value

/-- The recency of a file whose date cannot be read is that of its access token. -/
def claimedRecency (runtime : TokenRuntime) (auth : Option Object) : Number :=
  let claims := ((accessToken auth).bind Json.asString?).bind runtime.decodeJwtPayload
  let issued := (claims.bind fun fields => fields.get "iat").bind Json.asNumber?
  let expires := (claims.bind fun fields => fields.get "exp").bind Json.asNumber?
  (issued.or expires).getD (.finite (-1))

theorem codexRecency_eq (auth : Option Object) :
    codexRecency runtime auth =
      match ((auth.bind fun fields => fields.get "last_refresh").bind Json.asString?).bind
          runtime.dateParse with
      | some milliseconds => .finite (milliseconds / 1000)
      | none => claimedRecency runtime auth := rfl

theorem claimedRecency_mergedAuth (tokens : hasCodexTokens (some poolAuth) = true) :
    claimedRecency runtime (parseObject (some (stringify (mergedAuth ownerAuth poolAuth)))) =
      claimedRecency runtime (some poolAuth) := by
  unfold claimedRecency
  rw [(holdsTokensOf_mergedAuth tokens).1]

/-- A grant that is written back because it is newer does not make the vault less recent. -/
theorem atLeastAsRecent_mergedAuth (tokens : hasCodexTokens (some poolAuth) = true)
    (newer : Number.lt (codexRecency runtime ownerAuth) (codexRecency runtime (some poolAuth)) =
      true) :
    Number.lt (codexRecency runtime (parseObject (some (stringify (mergedAuth ownerAuth poolAuth)))))
      (codexRecency runtime ownerAuth) = false := by
  have asPool : codexRecency runtime (parseObject (some (stringify (mergedAuth ownerAuth poolAuth)))) =
      codexRecency runtime (some poolAuth) → Number.lt (codexRecency runtime (parseObject (some
        (stringify (mergedAuth ownerAuth poolAuth))))) (codexRecency runtime ownerAuth) = false :=
    fun same => by rw [same, Number.lt_asymm newer]
  cases date : poolAuth.get "last_refresh" with
  | some value =>
    refine asPool ?_
    rw [codexRecency_eq, codexRecency_eq, lastRefresh_mergedAuth, claimedRecency_mergedAuth tokens]
    simp only [Option.bind_some, date, Option.some_or]
  | none =>
    -- The merged file keeps the owner's date.
    have dated : codexRecency runtime (parseObject (some (stringify
        (mergedAuth ownerAuth poolAuth)))) = match ((ownerAuth.bind fun fields =>
          fields.get "last_refresh").bind Json.asString?).bind runtime.dateParse with
        | some milliseconds => .finite (milliseconds / 1000)
        | none => claimedRecency runtime (some poolAuth) := by
      rw [codexRecency_eq, lastRefresh_mergedAuth, claimedRecency_mergedAuth tokens, date]
      rfl
    cases own : ((ownerAuth.bind fun fields => fields.get "last_refresh").bind
        Json.asString?).bind runtime.dateParse with
    | some milliseconds =>
      rw [dated, codexRecency_eq ownerAuth, own]
      exact Number.lt_irrefl _
    | none =>
      refine asPool ?_
      rw [dated, own, codexRecency_eq (some poolAuth), Option.bind_some, date]
      rfl

end Merged

/-! ### What a call keeps -/

/-- The login in a folder's file. -/
def authIn (files : PoolFiles) (configDir : String) : Option Object :=
  parseObject (files (.credentials configDir))

/-- The vault of a member has the tokens of a replaced login, or its account at least as recent. -/
def InVault (runtime : TokenRuntime) (members : List Identity) (files : PoolFiles)
    (replaced : Option Object) : Prop :=
  ∃ member ∈ members, HoldsTokensOf (authIn files member.configDir) replaced ∨
    ∃ accountId, (codexAccountOf runtime (authIn files member.configDir)).id = some accountId ∧
      (codexAccountOf runtime replaced).id = some accountId ∧
      Number.lt (codexRecency runtime (authIn files member.configDir))
        (codexRecency runtime replaced) = false

/-- The call wrote a `.pre-swap` or `.pre-heal` copy of the text. -/
def BackedUp (poolDir : String) (own : PoolActions) (replaced : Option FileText) : Prop :=
  ∃ kind stamp before text, kind ≠ .merge ∧ replaced = some text ∧
    .wrote none (.backup poolDir kind stamp) before text ∈ own

def Recoverable (runtime : TokenRuntime) (codex : MemberPool) (files : PoolFiles)
    (own : PoolActions) (replaced : Option FileText) : Prop :=
  InVault runtime codex.members files (parseObject replaced) ∨
    BackedUp codex.pool.configDir own replaced

/-- A folder's file is as the call first found it when it replaced it, or at least as recent. -/
def Unharmed (runtime : TokenRuntime) (own : PoolActions) (configDir : String) : Prop :=
  ∀ before after, firstReplaced (.credentials configDir) own = some before →
    lastPut (.credentials configDir) own = some after →
    before = some after ∨ AtLeastAsRecent runtime (parseObject before) (parseObject (some after))

/-- What a call is to keep: every login that it replaced in the pool's file is recoverable, and when
it ends with an error no file is the worse for it. -/
structure KeepsGrants {Result : Type} (runtime : TokenRuntime) (codex : MemberPool)
    (outcome : Except String Result) (files : PoolFiles) (own : PoolActions) : Prop where
  recoverable : ∀ before after, .wrote none (.credentials codex.pool.configDir) before after ∈ own →
    hasCodexTokens (parseObject before) = true → Recoverable runtime codex files own before
  unharmed : ∀ message, outcome = .error message → ∀ configDir, Unharmed runtime own configDir

/-- The sessions leave the pool's file alone where the call relies on it: a login that the call
replaces is what it last found there, and what it finds after it has put a login there is still that
account's. -/
def Undisturbed (runtime : TokenRuntime) (poolDir : String) : PoolActions → Prop
  | [] => True
  | .wrote _ file before _ :: earlier =>
      (file = .credentials poolDir → hasCodexTokens (parseObject before) = true →
        lastFound file earlier = some before) ∧ Undisturbed runtime poolDir earlier
  | .read _ file found :: earlier =>
      (file = .credentials poolDir → ∀ installed ∈ lastPut file earlier,
        (codexAccountOf runtime (parseObject found)).id =
          (codexAccountOf runtime (parseObject (some installed))).id) ∧
        Undisturbed runtime poolDir earlier

instance (runtime : TokenRuntime) (poolDir : String) :
    DecidablePred (Undisturbed runtime poolDir) :=
  decide
where
  decide : (own : PoolActions) → Decidable (Undisturbed runtime poolDir own)
  | [] => .isTrue trivial
  | .wrote _ file before _ :: earlier =>
      have := decide earlier
      inferInstanceAs (Decidable ((file = .credentials poolDir →
        hasCodexTokens (parseObject before) = true → lastFound file earlier = some before) ∧
          Undisturbed runtime poolDir earlier))
  | .read _ file found :: earlier =>
      have := decide earlier
      inferInstanceAs (Decidable ((file = .credentials poolDir →
        ∀ installed ∈ lastPut file earlier, (codexAccountOf runtime (parseObject found)).id =
          (codexAccountOf runtime (parseObject (some installed))).id) ∧
            Undisturbed runtime poolDir earlier))

/-- A login has an id token, and an account or two that disagree. -/
def IsWhole (runtime : TokenRuntime) (auth : Option Object) : Prop :=
  hasCodexTokens auth = true → isComplete auth = true ∧
    ((codexAccountOf runtime auth).hybrid = true ∨ (codexAccountOf runtime auth).id ≠ none)

/-- The call replaces no login that `heal` takes for damaged. -/
def ReplacesWhole (runtime : TokenRuntime) (poolDir : String) (own : PoolActions) : Prop :=
  ∀ before after, .wrote none (.credentials poolDir) before after ∈ own →
    IsWhole runtime (parseObject before)

/-! ### Stages of a call -/

section Stages

variable {runtime : TokenRuntime} {codex : MemberPool} {files : PoolFiles} {own : PoolActions}
  {poolText : Option FileText}

/-- The call has only looked at files. -/
def OnlyLooked (own : PoolActions) : Prop :=
  ∀ event ∈ own, ∃ file found, event = .read none file found

/-- The call has looked at the pool's file, and has not replaced it; what it has written into a vault
is at least as recent as what was there. -/
structure Examined (runtime : TokenRuntime) (codex : MemberPool) (poolText : Option FileText)
    (own : PoolActions) : Prop where
  found : lastFound (.credentials codex.pool.configDir) own = some poolText
  unwritten : ∀ before after, .wrote none (.credentials codex.pool.configDir) before after ∉ own
  unharmed : ∀ configDir, Unharmed runtime own configDir

/-- What is in the pool's file may be replaced. -/
def Saved (runtime : TokenRuntime) (codex : MemberPool) (poolText : Option FileText)
    (files : PoolFiles) (own : PoolActions) : Prop :=
  hasCodexTokens (parseObject poolText) = true → Recoverable runtime codex files own poolText

theorem OnlyLooked.read (looked : OnlyLooked own) (file : PoolFile) (found : Option FileText) :
    OnlyLooked (.read none file found :: own) :=
  List.forall_mem_cons.mpr ⟨⟨file, found, rfl⟩, looked⟩

theorem OnlyLooked.firstReplaced (looked : OnlyLooked own) (file : PoolFile) :
    firstReplaced file own = none := by
  induction own with
  | nil => rfl
  | cons event own inductionHypothesis =>
    obtain ⟨⟨other, found, same⟩, looked⟩ := List.forall_mem_cons.mp looked
    rw [same]
    exact inductionHypothesis looked

theorem OnlyLooked.not_wrote (looked : OnlyLooked own) {file : PoolFile}
    {before : Option FileText} {after : FileText} : .wrote none file before after ∉ own := by
  intro member
  obtain ⟨other, found, same⟩ := looked _ member
  cases same

theorem OnlyLooked.unharmed (looked : OnlyLooked own) (configDir : String) :
    Unharmed runtime own configDir := by
  intro before after first
  rw [looked.firstReplaced] at first
  cases first

theorem OnlyLooked.examined (looked : OnlyLooked own) (poolText : Option FileText) :
    Examined runtime codex poolText
      (.read none (.credentials codex.pool.configDir) poolText :: own) :=
  ⟨if_pos rfl, fun _ _ => (looked.read _ _).not_wrote, (looked.read _ _).unharmed⟩

/-- A call that has not replaced the pool's file keeps what it is to keep. -/
theorem KeepsGrants.of_unwritten {Result : Type} (outcome : Except String Result)
    (unwritten : ∀ before after, .wrote none (.credentials codex.pool.configDir) before after ∉ own)
    (unharmed : ∀ configDir, Unharmed runtime own configDir) :
    KeepsGrants runtime codex outcome files own :=
  ⟨fun before after member => absurd member (unwritten before after), fun _ _ => unharmed⟩

theorem OnlyLooked.keepsGrants {Result : Type} (looked : OnlyLooked own)
    (outcome : Except String Result) : KeepsGrants runtime codex outcome files own :=
  .of_unwritten outcome (fun _ _ => looked.not_wrote) looked.unharmed

theorem Examined.keepsGrants {Result : Type} (examined : Examined runtime codex poolText own)
    (outcome : Except String Result) : KeepsGrants runtime codex outcome files own :=
  .of_unwritten outcome examined.unwritten examined.unharmed

/-- Looking at a vault. -/
theorem Examined.read (examined : Examined runtime codex poolText own) {configDir : String}
    (different : configDir ≠ codex.pool.configDir) (found : Option FileText) :
    Examined runtime codex poolText (.read none (.credentials configDir) found :: own) := by
  have other : PoolFile.credentials configDir ≠ .credentials codex.pool.configDir := by
    intro same
    exact different (PoolFile.credentials.inj same)
  refine ⟨(if_neg other).trans examined.found, fun before after member => ?_, examined.unharmed⟩
  rcases List.mem_cons.mp member with same | member
  · cases same
  · exact examined.unwritten before after member

/-- Writing a backup. -/
theorem Examined.backUp (examined : Examined runtime codex poolText own) (kind : BackupKind)
    (stamp : String) (before : Option FileText) (text : FileText) :
    Examined runtime codex poolText
      (.wrote none (.backup codex.pool.configDir kind stamp) before text :: own) := by
  refine ⟨examined.found, fun before after member => ?_, fun configDir first last replaced put =>
    examined.unharmed configDir first last ?_ put⟩
  · rcases List.mem_cons.mp member with same | member
    · cases same
    · exact examined.unwritten before after member
  · rw [firstReplaced, if_neg (fun same => nomatch same), Option.or_none] at replaced
    exact replaced

/-- The call has only looked at files, and last found the text in the pool's. -/
structure Looked (codex : MemberPool) (poolText : Option FileText) (own : PoolActions) : Prop where
  only : OnlyLooked own
  found : lastFound (.credentials codex.pool.configDir) own = some poolText

theorem Looked.read (looked : Looked codex poolText own) {configDir : String}
    (different : configDir ≠ codex.pool.configDir) (found : Option FileText) :
    Looked codex poolText (.read none (.credentials configDir) found :: own) :=
  ⟨looked.only.read _ _, (if_neg (credentials_ne different)).trans looked.found⟩

theorem Looked.examined (looked : Looked codex poolText own) :
    Examined runtime codex poolText own :=
  ⟨looked.found, fun _ _ => looked.only.not_wrote, looked.only.unharmed⟩

theorem InVault.congr {other : PoolFiles} {replaced : Option Object}
    (saved : InVault runtime codex.members files replaced)
    (same : ∀ member ∈ codex.members,
      other (.credentials member.configDir) = files (.credentials member.configDir)) :
    InVault runtime codex.members other replaced := by
  obtain ⟨member, isMember, holds⟩ := saved
  refine ⟨member, isMember, ?_⟩
  rw [authIn, same member isMember]
  exact holds

theorem Recoverable.cons {replaced : Option FileText}
    (recoverable : Recoverable runtime codex files own replaced)
    (event : Event PoolFile FileText (Option ℕ)) :
    Recoverable runtime codex files (event :: own) replaced := by
  rcases recoverable with inVault | ⟨kind, stamp, before, text, notMerge, same, member⟩
  · exact Or.inl inVault
  · exact Or.inr ⟨kind, stamp, before, text, notMerge, same, List.mem_cons_of_mem _ member⟩

/-- Replacing a file that is no vault. -/
theorem Saved.update (saved : Saved runtime codex poolText files own) {file : PoolFile}
    (noVault : ∀ member ∈ codex.members, file ≠ .credentials member.configDir)
    (content : FileText) (event : Event PoolFile FileText (Option ℕ)) :
    Saved runtime codex poolText (Function.update files file (some content)) (event :: own) := by
  intro tokens
  refine Recoverable.cons ?_ event
  rcases saved tokens with inVault | backedUp
  · refine Or.inl (inVault.congr fun member isMember => ?_)
    exact Function.update_of_ne (noVault member isMember).symm _ _
  · exact Or.inr backedUp

theorem Saved.cons (saved : Saved runtime codex poolText files own)
    (event : Event PoolFile FileText (Option ℕ)) :
    Saved runtime codex poolText files (event :: own) :=
  fun tokens => (saved tokens).cons event

end Stages

/-! ### Writing back -/

section WriteBack

variable {runtime : TokenRuntime} {codex : MemberPool} {files : PoolFiles} {own : PoolActions}
  {poolText : Option FileText}

/-- The file of the pool, that sessions rewrite. -/
abbrev poolFile (codex : MemberPool) : PoolFile :=
  .credentials codex.pool.configDir

theorem against_ownerByAccount (accountId : String) (activeName : Option String)
    (looked : Looked codex poolText own) :
    (ownerByAccount (accountOf runtime) codex.members accountId activeName).against
      (· = poolFile codex) (fun outcome kept own => kept = files ∧ Looked codex poolText own ∧
        ∀ owner, outcome = .ok (some owner) →
          (codexAccountOf runtime (authIn files owner.val.configDir)).id = some accountId)
      files own := by
  refine Program.against_mono (fun outcome kept own ended => ?_) _ files own
    (against_findOwner ?_ ?_ _ own looked)
  · obtain ⟨same, looked, found⟩ := ended
    refine ⟨same, looked, fun owner isOwner => ?_⟩
    rw [found] at isOwner
    have has := List.find?_some (Except.ok.inj isOwner)
    exact of_decide_eq_true has
  · exact fun member isMember => credentials_ne (codex.separate member isMember)
  · exact fun member isMember _ found looked => looked.read (codex.separate member isMember) found

/-- What the write-back has done of the pool's login. -/
structure WroteBack (runtime : TokenRuntime) (codex : MemberPool) (poolText : Option FileText)
    (accountOfOwner : Prop) (outcome : Except String WriteBackOutcome) (kept : PoolFiles)
    (own : PoolActions) : Prop where
  examined : Examined runtime codex poolText own
  inVault : accountOfOwner → ∀ result, outcome = .ok result →
    InVault runtime codex.members kept (parseObject poolText)

theorem decideWriteBack_cases {ownerAuth : Option Object} {poolAuth : Object}
    (sameAccount : (codexAccountOf runtime ownerAuth).id =
      (codexAccountOf runtime (some poolAuth)).id) :
    decideWriteBack runtime ownerAuth poolAuth = .written ∨
      HoldsTokensOf ownerAuth (some poolAuth) ∨
      Number.lt (codexRecency runtime ownerAuth) (codexRecency runtime (some poolAuth)) = false := by
  unfold decideWriteBack
  split_ifs with tokens different identical newer
  · exact absurd sameAccount different
  · refine Or.inr (Or.inl ⟨?_, fun token has => ?_⟩)
    · exact (Json.asString?_of_strictEqual identical.1).symm
    · exact (Json.asString?_of_strictEqual identical.2).trans has
  · exact Or.inl rfl
  · exact Or.inr (Or.inr (Bool.eq_false_iff.mpr newer))
  · exact Or.inl rfl

theorem atLeastAsRecent_of_written {ownerAuth : Option Object} {poolAuth : Object}
    (tokens : hasCodexTokens (some poolAuth) = true)
    (written : decideWriteBack runtime ownerAuth poolAuth = .written) :
    AtLeastAsRecent runtime ownerAuth
      (parseObject (some (stringify (mergedAuth ownerAuth poolAuth)))) := by
  refine fun owners => ⟨hasCodexTokens_mergedAuth tokens, ?_⟩
  unfold decideWriteBack at written
  rw [if_pos owners] at written
  split_ifs at written with different identical newer
  exact atLeastAsRecent_mergedAuth tokens newer

/-- A vault written after the call had only looked. -/
theorem Examined.of_write (looked : Looked codex poolText own) {configDir : String}
    (different : configDir ≠ codex.pool.configDir) {before : Option FileText} {after : FileText}
    (recent : AtLeastAsRecent runtime (parseObject before) (parseObject (some after))) :
    Examined runtime codex poolText (.wrote none (.credentials configDir) before after :: own) := by
  refine ⟨looked.found, fun first last member => ?_, fun other first last replaced put => ?_⟩
  · rcases List.mem_cons.mp member with same | member
    · injection same with _ file
      exact credentials_ne different file.symm
    · exact looked.only.not_wrote member
  · rw [firstReplaced, looked.only.firstReplaced, Option.none_or] at replaced
    rw [lastPut] at put
    split_ifs at replaced put with same
    cases replaced
    cases put
    exact Or.inr recent

theorem against_writeBackToOwner {owner : Identity} {poolAuth : Object} {accountId : String}
    (looked : Looked codex poolText own) (member : owner ∈ codex.members)
    (parsed : parseObject poolText = some poolAuth)
    (tokens : hasCodexTokens (some poolAuth) = true)
    (account : (codexAccountOf runtime (some poolAuth)).id = some accountId) :
    (writeBackToOwner runtime owner poolAuth).against (· = poolFile codex)
      (WroteBack runtime codex poolText
        ((codexAccountOf runtime (authIn files owner.configDir)).id = some accountId)) files own := by
  intro found answer
  have separate := codex.separate owner member
  have same : found = files (.credentials owner.configDir) := answer (credentials_ne separate)
  have looked := looked.read separate found
  have unwritten : decideWriteBack runtime (parseObject found) poolAuth ≠ .written →
      WroteBack runtime codex poolText
        ((codexAccountOf runtime (authIn files owner.configDir)).id = some accountId)
        (.ok (decideWriteBack runtime (parseObject found) poolAuth)) files
        (.read none (.credentials owner.configDir) found :: own) := by
    refine fun notWritten => ⟨looked.examined, fun owners result _ => ⟨owner, member, ?_⟩⟩
    rw [authIn, ← same, parsed]
    rw [authIn, ← same] at owners
    rcases decideWriteBack_cases (owners.trans account.symm) with written | holds | recent
    · exact absurd written notWritten
    · exact Or.inl holds
    · exact Or.inr ⟨accountId, owners, account, recent⟩
  dsimp only [Program.andThen]
  cases decided : decideWriteBack runtime (parseObject found) poolAuth with
  | written =>
    refine ⟨fun before answer => ⟨?_, fun _ _ _ => ⟨owner, member, Or.inl ?_⟩⟩,
      ⟨looked.examined, fun _ _ same => by cases same⟩⟩
    · have replaced : before = found := (answer (credentials_ne separate)).trans same.symm
      rw [replaced]
      exact Examined.of_write looked separate (atLeastAsRecent_of_written tokens decided)
    · rw [authIn, Function.update_self, parsed]
      exact holdsTokensOf_mergedAuth tokens
  | _ =>
    rw [decided] at unwritten
    exact unwritten fun same => by cases same

end WriteBack

/-! ### Swaps -/

section Calls

variable {runtime : TokenRuntime} {codex : MemberPool} {files : PoolFiles} {own : PoolActions}
  {poolText : Option FileText} {held : List String}

theorem against_withHeld {Result : Type} {post : Except String Result → PoolFiles →
      PoolActions → Prop} {poolDir : String} {program : PoolProgram Result}
    (body : program.against (· = poolFile codex) post files own)
    (gaveUp : post (.error "could not take lock") files own) :
    (withHeld poolDir held program).against (· = poolFile codex) post files own :=
  Program.against_withLock _ (against_withOauthRefreshLocks body gaveUp) gaveUp

/-- The pool's login has gone into a vault, or is one that is kept in a backup. -/
def Attributed (runtime : TokenRuntime) (codex : MemberPool) (poolText : Option FileText)
    (writeBack : WriteBackOutcome) (kept : PoolFiles) (own : PoolActions) : Prop :=
  Examined runtime codex poolText own ∧ (hasCodexTokens (parseObject poolText) = true →
    InVault runtime codex.members kept (parseObject poolText) ∨
      writeBack = .noneUnknownOwner ∨ writeBack = .noneAccountMismatch)

/-- How the write-back of a swap ends. -/
def WritesBack (runtime : TokenRuntime) (codex : MemberPool) (poolText : Option FileText) :
    Except String (Attempt codex.members held (WriteBackOutcome × List String)) → PoolFiles →
      PoolActions → Prop
  | .ok (.needLock ..) => fun _ => OnlyLooked
  | .ok (.done (writeBack, _)) => Attributed runtime codex poolText writeBack
  | .error _ => fun _ => Examined runtime codex poolText

theorem against_writeBackPool (looked : Looked codex poolText own) :
    (writeBackPool runtime codex held (parseObject poolText)).against (· = poolFile codex)
      (WritesBack runtime codex poolText) files own := by
  cases parsed : parseObject poolText with
  | none => exact ⟨looked.examined, fun tokens => by rw [parsed] at tokens; cases tokens⟩
  | some auth =>
    unfold writeBackPool
    dsimp only
    by_cases tokens : hasCodexTokens (some auth) = true
    swap
    · rw [if_pos tokens]
      exact ⟨looked.examined, fun has => absurd (parsed ▸ has) tokens⟩
    rw [if_neg (not_not.mpr tokens)]
    split_ifs with hybrid
    · exact ⟨looked.examined, fun _ => Or.inr (Or.inr rfl)⟩
    · cases account : (codexAccountOf runtime (some auth)).id with
      | none => exact ⟨looked.examined, fun _ => Or.inr (Or.inl rfl)⟩
      | some accountId =>
        refine Program.against_bind (against_ownerByAccount accountId _ looked)
          (fun owner kept own found => ?_) fun _ kept own found => found.2.1.examined
        obtain ⟨same, looked, owners⟩ := found
        subst same
        cases owner with
        | none => exact ⟨looked.examined, fun _ => Or.inr (Or.inl rfl)⟩
        | some owner =>
          dsimp only
          by_cases unheld : owner.val.configDir ∉ held
          · rw [dif_pos unheld]
            exact looked.only
          · rw [dif_neg unheld]
            refine Program.against_bind (against_writeBackToOwner looked owner.property parsed
              tokens account) (fun outcome kept own wroteBack => ?_)
              fun _ _ _ wroteBack => wroteBack.examined
            exact ⟨wroteBack.examined, fun _ => Or.inl (wroteBack.inVault (owners owner rfl) _ rfl)⟩

/-- The pool's login may be replaced; an error changes nothing of that. -/
def Saves (runtime : TokenRuntime) (codex : MemberPool) (poolText : Option FileText)
    {Result : Type} (results : Result → Prop) (outcome : Except String Result) (kept : PoolFiles)
    (own : PoolActions) : Prop :=
  Examined runtime codex poolText own ∧ ∀ result, outcome = .ok result →
    Saved runtime codex poolText kept own ∧ results result

theorem against_backUpUnattributed {writeBack : WriteBackOutcome} (stamp : String)
    (attributed : Attributed runtime codex poolText writeBack files own) :
    (backUpUnattributed codex.pool.configDir stamp writeBack poolText).against (· = poolFile codex)
      (Saves runtime codex poolText fun _ => True) files own := by
  obtain ⟨examined, inVault⟩ := attributed
  cases poolText with
  | none => exact ⟨examined, fun _ _ => ⟨(nomatch ·), trivial⟩⟩
  | some text =>
    unfold backUpUnattributed
    dsimp only
    split_ifs with unattributed
    · refine ⟨fun before _ => ⟨examined.backUp _ _ _ _, fun _ _ => ⟨fun _ => Or.inr ?_, trivial⟩⟩,
        ⟨examined, fun _ same => nomatch same⟩⟩
      exact ⟨.swap, stamp, before, text, (nomatch ·), rfl, List.mem_cons_self⟩
    · refine ⟨examined, fun _ _ => ⟨fun tokens => Or.inl ?_, trivial⟩⟩
      exact (inVault tokens).resolve_right unattributed

/-- The text is a login of the account. -/
def IsLoginOf (runtime : TokenRuntime) (accountId : String) (text : FileText) : Prop :=
  (codexAccountOf runtime (parseObject (some text))).id = some accountId

theorem usableLogin_ok {target : Identity} {text : Option FileText} {login : FileText × String}
    (usable : usableLogin runtime target text = .ok login) :
    text = some login.1 ∧ IsLoginOf runtime login.2 login.1 := by
  cases text with
  | none => cases usable
  | some vault =>
    unfold usableLogin at usable
    dsimp only at usable
    split_ifs at usable with tokens
    · cases account : (codexAccountOf runtime (parseObject (some vault))).id with
      | none => rw [account] at usable; cases usable
      | some accountId =>
        rw [account] at usable
        cases usable
        exact ⟨rfl, account⟩
    · cases usable

theorem against_currentText {target : Identity} (member : target ∈ codex.members)
    {targetText : FileText} {targetId : String} (login : IsLoginOf runtime targetId targetText)
    (writeBack : WriteBackOutcome) (examined : Examined runtime codex poolText own)
    (saved : Saved runtime codex poolText files own) :
    (currentText runtime target targetText targetId writeBack).against (· = poolFile codex)
      (Saves runtime codex poolText (IsLoginOf runtime targetId)) files own := by
  unfold currentText
  split_ifs
  · intro found _
    have read := examined.read (codex.separate target member) found
    dsimp only [Program.andThen]
    cases usable : usableLogin runtime target found with
    | error message => exact ⟨read, fun _ same => by cases same; exact ⟨saved.cons _, login⟩⟩
    | ok fresh =>
      refine ⟨read, fun _ same => ⟨saved.cons _, ?_⟩⟩
      cases same
      split_ifs with sameAccount
      · exact sameAccount ▸ (usableLogin_ok usable).2
      · exact login
  · exact ⟨examined, fun _ same => by cases same; exact ⟨saved, login⟩⟩

/-- How a call ends: when it was carried out under the conditions, it keeps what it is to keep. -/
def Keeps (runtime : TokenRuntime) (codex : MemberPool) {Result : Type}
    (considered : PoolActions → Prop) (outcome : Except String Result) (kept : PoolFiles)
    (own : PoolActions) : Prop :=
  considered own → KeepsGrants runtime codex outcome kept own

/-- The pool's file is replaced. -/
theorem keepsGrants_replace {Result : Type} (result : Result)
    (examined : Examined runtime codex poolText own) {before : Option FileText} {text : FileText}
    (saved : before = poolText → Saved runtime codex poolText files own)
    (undisturbed : Undisturbed runtime codex.pool.configDir
      (.wrote none (poolFile codex) before text :: own)) :
    KeepsGrants runtime codex (.ok result : Except String Result)
      (Function.update files (poolFile codex) (some text))
      (.wrote none (poolFile codex) before text :: own) := by
  refine ⟨fun replaced after member tokens => ?_, fun _ same => nomatch same⟩
  have separate : ∀ member ∈ codex.members, poolFile codex ≠ .credentials member.configDir :=
    fun member isMember => credentials_ne (codex.separate member isMember).symm
  rcases List.mem_cons.mp member with same | member
  · cases same
    -- What is replaced is what the call looked at.
    have found := undisturbed.1 rfl tokens
    rw [examined.found] at found
    cases found
    exact (saved rfl).update separate text _ tokens
  · exact absurd member (examined.unwritten _ _)

theorem KeepsGrants.read {Result : Type} {outcome : Except String Result}
    (keeps : KeepsGrants runtime codex outcome files own) (file : PoolFile)
    (found : Option FileText) :
    KeepsGrants runtime codex outcome files (.read none file found :: own) := by
  refine ⟨fun before after member tokens => ?_, keeps.unharmed⟩
  rcases List.mem_cons.mp member with same | member
  · cases same
  · exact (keeps.recoverable before after member tokens).cons _

/-- A call that did not end with an error keeps the same whatever it returns. -/
theorem KeepsGrants.returning {First Second : Type} {first : First}
    (keeps : KeepsGrants runtime codex (.ok first : Except String First) files own)
    (second : Second) : KeepsGrants runtime codex (.ok second : Except String Second) files own :=
  ⟨keeps.recoverable, fun _ same => nomatch same⟩

theorem against_install {text : FileText} {targetId : String}
    (login : IsLoginOf runtime targetId text) (examined : Examined runtime codex poolText own)
    (saved : Saved runtime codex poolText files own) :
    (install runtime codex.pool.configDir text targetId poolText).against (· = poolFile codex)
      (Keeps runtime codex (Undisturbed runtime codex.pool.configDir)) files own := by
  refine ⟨fun before _ found _ => ?_, fun _ => examined.keepsGrants _⟩
  show Program.against _ _ (if _ then _ else _) _ _
  split_ifs with verified
  · exact fun undisturbed => (keepsGrants_replace () examined (fun _ => saved) undisturbed.2).read _ _
  · -- Only a session can have put another account there.
    have disturbed : ¬ Undisturbed runtime codex.pool.configDir
        (.read none (poolFile codex) found :: .wrote none (poolFile codex) before text :: own) :=
      fun undisturbed => verified ((undisturbed.1 rfl text (if_pos rfl)).trans login)
    cases poolText with
    | none => exact fun undisturbed => absurd undisturbed disturbed
    | some previous =>
      exact ⟨fun _ _ undisturbed => absurd undisturbed.2 disturbed,
        fun undisturbed => absurd undisturbed disturbed⟩

/-- How an attempt of a call ends. -/
abbrev Attempts (runtime : TokenRuntime) (codex : MemberPool) {Result : Type}
    (considered : PoolActions → Prop) :
    Except String (Attempt codex.members held Result) → PoolFiles → PoolActions → Prop :=
  Round (fun _ => OnlyLooked) (Keeps runtime codex considered)

theorem against_swapFrom {target : Identity} (member : target ∈ codex.members) (stamp : String)
    {targetText : FileText} {targetId : String} (login : IsLoginOf runtime targetId targetText)
    (looked : OnlyLooked own) :
    (swapFrom runtime codex target stamp held targetText targetId).against (· = poolFile codex)
      (Attempts runtime codex (Undisturbed runtime codex.pool.configDir)) files own := by
  intro poolText _
  have looked : Looked codex poolText (.read none (poolFile codex) poolText :: own) :=
    ⟨looked.read _ _, if_pos rfl⟩
  show Program.against _ _ (if _ then _ else _) _ _
  split_ifs
  · exact fun _ => looked.only.keepsGrants _
  · refine Program.against_bind (against_writeBackPool looked) (fun attempt kept own ends => ?_)
      fun message kept own examined _ => examined.keepsGrants _
    cases attempt with
    | needLock owner isMember unheld => exact ends
    | done result =>
      refine Program.against_bind (against_backUpUnattributed stamp ends)
        (fun _ kept own saves => ?_) fun message kept own saves _ => saves.1.keepsGrants _
      obtain ⟨examined, saved⟩ := saves
      refine Program.against_bind (against_currentText member login result.1 examined
        (saved _ rfl).1) (fun text kept own saves => ?_) fun message kept own saves _ =>
          saves.1.keepsGrants _
      obtain ⟨examined, saved⟩ := saves
      refine Program.against_bind (against_install (saved text rfl).2 examined (saved text rfl).1)
        (fun _ kept own keeps undisturbed => (keeps undisturbed).returning _)
        fun message kept own keeps undisturbed => ?_
      exact ⟨(keeps undisturbed).recoverable, fun _ _ => (keeps undisturbed).unharmed message rfl⟩

theorem against_swapHeld {target : Identity} (member : target ∈ codex.members) (stamp : String)
    (looked : OnlyLooked own) :
    (swapHeld runtime codex target stamp held).against (· = poolFile codex)
      (Attempts runtime codex (Undisturbed runtime codex.pool.configDir)) files own := by
  refine against_withHeld ?_ fun _ => looked.keepsGrants _
  intro targetText _
  dsimp only [Program.andThen]
  cases usable : usableLogin runtime target targetText with
  | error message => exact fun _ => (looked.read _ _).keepsGrants _
  | ok login =>
    exact against_swapFrom member stamp (usableLogin_ok usable).2 (looked.read _ _)

theorem against_swapCredentials {target : Identity} (member : target ∈ codex.members)
    (stamp : String) (looked : OnlyLooked own) :
    (swapCredentials runtime codex target stamp).against (· = poolFile codex)
      (Keeps runtime codex (Undisturbed runtime codex.pool.configDir)) files own :=
  against_untilHeld (fun _ => OnlyLooked) (fun _ _ _ looked => against_swapHeld member stamp looked)
    _ files own looked

/-! ### Healing -/

/-- The conditions of a call that heals. -/
def HealsWhole (runtime : TokenRuntime) (codex : MemberPool) (own : PoolActions) : Prop :=
  Undisturbed runtime codex.pool.configDir own ∧
    ReplacesWhole runtime codex.pool.configDir own

theorem exists_of_isComplete {auth : Option Object} (complete : isComplete auth = true) :
    ∃ fields, auth = some fields ∧ hasCodexTokens (some fields) = true := by
  have tokens : hasCodexTokens auth = true := by
    rw [isComplete, Bool.and_eq_true] at complete
    exact complete.1
  cases auth with
  | none => cases tokens
  | some fields => exact ⟨fields, rfl, tokens⟩

/-- What the classification says of the pool's file. -/
theorem kindOf_spec (vaultAuth : Option Object) (vaultId : String) (poolAuth : Option Object) :
    match kindOf runtime vaultAuth vaultId poolAuth with
    | .damaged => ¬ (isComplete poolAuth = true ∧
        ((codexAccountOf runtime poolAuth).hybrid = true ∨
          (codexAccountOf runtime poolAuth).id ≠ none))
    | .foreign accountId => isComplete poolAuth = true ∧
        (codexAccountOf runtime poolAuth).id = some accountId
    | .same => isComplete poolAuth = true ∧ (codexAccountOf runtime poolAuth).id = some vaultId
    | _ => True := by
  unfold kindOf
  dsimp only
  by_cases complete : isComplete poolAuth = true
  · rw [if_neg (not_not.mpr complete)]
    by_cases hybrid : (codexAccountOf runtime poolAuth).hybrid = true
    · rw [if_pos hybrid]
      trivial
    · rw [if_neg hybrid]
      cases account : (codexAccountOf runtime poolAuth).id with
      | none => exact fun whole => whole.2.elim hybrid fun known => known rfl
      | some accountId =>
        dsimp only
        by_cases other : accountId ≠ vaultId
        · rw [if_pos other]
          exact ⟨complete, rfl⟩
        · rw [if_neg other]
          split_ifs
          · exact ⟨complete, congrArg some (not_not.mp other)⟩
          · trivial
  · rw [if_pos complete]
    exact fun whole => complete whole.1

theorem against_restore (active : Identity) (vaultText : FileText) (notes : List String)
    (examined : Examined runtime codex poolText own)
    (saved : IsWhole runtime (parseObject poolText) → Saved runtime codex poolText files own) :
    (restore codex active vaultText notes >>= fun notes =>
        (pure (Attempt.done notes) : PoolProgram (Attempt codex.members held (List String)))).against
      (· = poolFile codex) (Attempts runtime codex (HealsWhole runtime codex)) files own := by
  refine ⟨fun before _ considered => ?_, fun _ => examined.keepsGrants _⟩
  refine keepsGrants_replace _ examined (fun same => saved ?_) considered.1
  exact same ▸ considered.2 before vaultText List.mem_cons_self

theorem against_backUpHealed (stamp : String) (examined : Examined runtime codex poolText own) :
    (backUpHealed codex.pool.configDir stamp poolText).against (· = poolFile codex)
      (Saves runtime codex poolText fun _ => True) files own := by
  cases poolText with
  | none => exact ⟨examined, fun _ _ => ⟨(nomatch ·), trivial⟩⟩
  | some text =>
    refine ⟨fun before _ => ⟨examined.backUp _ _ _ _, fun _ _ => ⟨fun _ => Or.inr ?_, trivial⟩⟩,
      ⟨examined, fun _ same => nomatch same⟩⟩
    exact ⟨.heal, stamp, before, text, (nomatch ·), rfl, List.mem_cons_self⟩

theorem against_healForeign {active : Identity} {stamp : String} {vaultText : FileText}
    {poolAuth : Object} {accountId : String} (looked : Looked codex poolText own)
    (parsed : parseObject poolText = some poolAuth)
    (tokens : hasCodexTokens (some poolAuth) = true)
    (account : (codexAccountOf runtime (some poolAuth)).id = some accountId) :
    (healForeign runtime codex active stamp held vaultText poolText poolAuth accountId).against
      (· = poolFile codex) (Attempts runtime codex (HealsWhole runtime codex)) files own := by
  refine Program.against_bind (against_ownerByAccount accountId _ looked)
    (fun owner kept own found => ?_) fun _ kept own found _ => found.2.1.examined.keepsGrants _
  obtain ⟨same, looked, owners⟩ := found
  subst same
  cases owner with
  | none =>
    refine Program.against_bind (against_backUpHealed stamp looked.examined)
      (fun backup kept own saves => ?_) fun _ _ _ saves _ => saves.1.keepsGrants _
    exact against_restore active vaultText _ saves.1 fun _ => (saves.2 _ rfl).1
  | some owner =>
    dsimp only
    by_cases unheld : owner.val.configDir ∉ held
    · rw [dif_pos unheld]
      exact looked.only
    · rw [dif_neg unheld]
      refine Program.against_bind (against_writeBackToOwner looked owner.property parsed tokens
        account) (fun outcome kept own wroteBack => ?_) fun _ _ _ wroteBack _ =>
          wroteBack.examined.keepsGrants _
      exact against_restore active vaultText _ wroteBack.examined fun _ _ =>
        Or.inl (wroteBack.inVault (owners owner rfl) _ rfl)

theorem against_repair {active : Identity} (member : active ∈ codex.members) (stamp : String)
    (vaultText : FileText) (vaultId : String) (looked : Looked codex poolText own) :
    (repair runtime codex active stamp held vaultText vaultId poolText).against (· = poolFile codex)
      (Attempts runtime codex (HealsWhole runtime codex)) files own := by
  have spec := @kindOf_spec runtime (parseObject (some vaultText)) vaultId
    (parseObject poolText)
  unfold repair
  dsimp only
  cases kind : kindOf runtime (parseObject (some vaultText)) vaultId (parseObject poolText) with
  | ok => exact fun _ => looked.only.keepsGrants _
  | same =>
    rw [kind] at spec
    obtain ⟨poolAuth, parsed, tokens⟩ := exists_of_isComplete spec.1
    rw [parsed] at spec ⊢
    refine Program.against_bind (against_writeBackToOwner looked member parsed tokens spec.2)
      (fun outcome kept own wroteBack _ => ?_) fun _ _ _ wroteBack _ =>
        wroteBack.examined.keepsGrants _
    exact wroteBack.examined.keepsGrants _
  | foreign accountId =>
    rw [kind] at spec
    obtain ⟨poolAuth, parsed, tokens⟩ := exists_of_isComplete spec.1
    rw [parsed] at spec ⊢
    exact against_healForeign looked parsed tokens spec.2
  | hybrid =>
    refine Program.against_bind (against_backUpHealed stamp looked.examined)
      (fun backup kept own saves => ?_) fun _ _ _ saves _ => saves.1.keepsGrants _
    exact against_restore active vaultText _ saves.1 fun _ => (saves.2 _ rfl).1
  | damaged =>
    rw [kind] at spec
    exact against_restore active vaultText _ looked.examined fun whole tokens =>
      absurd (whole tokens) spec

/-- The pool's file has been looked at, once or twice. -/
def Settled (codex : MemberPool) (outcome : Except String (Option FileText)) (_ : PoolFiles)
    (own : PoolActions) : Prop :=
  OnlyLooked own ∧ ∀ text, outcome = .ok text → Looked codex text own

theorem against_readSettled (again : Option FileText → Bool) (looked : OnlyLooked own) :
    (readSettled codex.pool.configDir again).against (· = poolFile codex) (Settled codex) files own := by
  intro first _
  have settled : ∀ own text, OnlyLooked own →
      Settled codex (.ok text) files (.read none (poolFile codex) text :: own) := by
    refine fun own text looked => ⟨looked.read _ _, fun _ same => ?_⟩
    cases same
    exact ⟨looked.read _ _, if_pos rfl⟩
  show Program.against _ _ (if _ then _ else _) _ _
  split_ifs
  · exact fun second _ => settled _ second (looked.read _ _)
  · exact settled _ first looked

theorem against_healHeld {active : Identity} (member : active ∈ codex.members) (stamp : String)
    (looked : OnlyLooked own) :
    (healHeld runtime codex active stamp held).against (· = poolFile codex)
      (Attempts runtime codex (HealsWhole runtime codex)) files own := by
  refine against_withHeld ?_ fun _ => looked.keepsGrants _
  intro vaultText _
  dsimp only [Program.andThen]
  cases usableLogin runtime active vaultText with
  | error message => exact fun _ => (looked.read _ _).keepsGrants _
  | ok login =>
    refine Program.against_bind (against_readSettled _ (looked.read _ _))
      (fun poolText kept own settled => ?_) fun _ _ _ settled _ => settled.1.keepsGrants _
    exact against_repair member stamp login.1 login.2 (settled.2 _ rfl)

theorem against_heal (stamp : String) (looked : OnlyLooked own) :
    (heal runtime codex stamp).against (· = poolFile codex)
      (Keeps runtime codex (HealsWhole runtime codex)) files own := by
  unfold heal
  cases isActive : activeMember codex.members codex.pool.active with
  | none => exact fun _ => looked.keepsGrants _
  | some active =>
    intro vaultText _
    dsimp only [Program.andThen]
    cases usableLogin runtime active vaultText with
    | error message => exact fun _ => (looked.read _ _).keepsGrants _
    | ok login =>
      refine Program.against_bind (against_readSettled _ (looked.read _ _))
        (fun poolText kept own settled => ?_) fun _ _ _ settled _ => settled.1.keepsGrants _
      split_ifs
      · exact fun _ => settled.1.keepsGrants _
      · refine against_untilHeld (fun _ => OnlyLooked) (fun _ _ _ looked => ?_) _ kept own settled.1
        exact against_healHeld (mem_of_activeMember isActive) stamp looked

end Calls

end AiSwitcher.Codex
