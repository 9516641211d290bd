/-
This file says what the calls of the Pi pool adapter are to do with the entries of
the pool's file, and proves it of the write-back: an entry goes only into a vault it
belongs to, and the account's own newer entry does go there.
-/

import AiSwitcher.Identities.Pool.PiEntries

namespace AiSwitcher.Pi

open JavaScript Interleaving Pool GrantFile

/-! ### What a call does with entries -/

/-- The entries in a folder's file. -/
def grantIn (files : PoolFiles) (configDir : String) : Option Object :=
  parseObject (files (.credentials configDir))

section Properties

variable (runtime : TokenRuntime) (grants : MemberPool) (files : PoolFiles)

/-- The member with the account of the pool's file, when that has a usable login. -/
def ownerIn : Option Identity :=
  if (piSpec runtime).usable (grantIn files grants.pool.configDir) then
    match accountOf (piSpec runtime) (files (.credentials grants.pool.configDir)) with
    | some accountId =>
      ((activeFirst grants.members grants.pool.active).find? fun member =>
        accountOf (piSpec runtime) (files (.credentials member.val.configDir)) =
          some accountId).map fun member => member.val
    | none => none
  else none

/-- The vault of the member with a name. -/
def vaultOf (files : PoolFiles) (name : String) : Option Object :=
  (grants.members.find? fun member => member.name = name).bind
    fun member => grantIn files member.configDir

/-- What is under a key, if anything, is an OAuth entry. -/
def OauthAt (vault : Option Object) (key : String) : Prop :=
  ∀ value, (vault.bind fun fields => fields.get key) = some value →
    (oauthEntry vault key).isSome = true

/-- The pool's entries can be told apart: the owner's vault has a usable login, an OAuth entry of
another provider meets an OAuth entry or nothing in the vault it is compared with, and the account's
own entry, if it is to move, has no token of another member's. -/
structure Attributable (comparedName : String) (owner : Identity) : Prop where
  usable : (piSpec runtime).usable (grantIn files owner.configDir) = true
  facing : ∀ key entry, key ≠ kimiKey →
    oauthEntry (grantIn files grants.pool.configDir) key = some entry →
    OauthAt (vaultOf grants files comparedName) key
  unshared : ∀ entry own, kimiEntry (grantIn files grants.pool.configDir) = some entry →
    kimiEntry (grantIn files owner.configDir) = some own → isNewer entry own = true →
    sameTokens entry own = false → ∀ member ∈ grants.members,
      member.configDir ≠ owner.configDir → ∀ theirs,
        kimiEntry (grantIn files member.configDir) = some theirs →
        (tokens theirs).Disjoint (tokens entry)

/-- An entry that goes into the vault of a folder, over the member's own, belongs there: it claims no
account but the member's own, none of its tokens is one of another member's entry for the provider,
and into a vault that is not the active member's only the account's own entry goes. -/
structure EntryFits (configDir key : String) (own entry : Object) : Prop where
  claimed : ∀ account, accountOfEntry runtime entry = some account →
    accountOfEntry runtime own = some account
  unshared : ∀ member ∈ grants.members, member.configDir ≠ configDir → ∀ theirs,
    oauthEntry (grantIn files member.configDir) key = some theirs →
    (tokens theirs).Disjoint (tokens entry)
  only : (∀ member ∈ grants.members, member.configDir = configDir →
    some member.name ≠ grants.pool.active) → key = kimiKey

/-- Every entry that a vault receives is one of the pool's file that belongs there. -/
def VaultFits (configDir : String) (before : Option FileText) (after : FileText) : Prop :=
  ∀ key, ((parseObject (some after)).bind fun fields => fields.get key) ≠
      ((parseObject before).bind fun fields => fields.get key).map Json.written →
    ∃ own entry, oauthEntry (parseObject before) key = some own ∧
      oauthEntry (grantIn files grants.pool.configDir) key = some entry ∧
      EntryFits runtime grants files configDir key own entry

/-- The member's vault is the one that the pool's entry for the provider is compared with: the owner's
for the account's own entry, the named member's for the others, when the pool's file has an account. -/
def Compared (comparedName key : String) (member : Identity) : Prop :=
  if key = kimiKey then ownerIn runtime grants files = some member
  else accountOf (piSpec runtime) (files (.credentials grants.pool.configDir)) ≠ none ∧
    (grants.members.find? fun member => member.name = comparedName) = some member

/-- An entry of the pool's file is not lost: a member's vault has it, or it is not newer than the
entry of the vault it was compared with, or a backup that the call wrote has it. -/
inductive Safe (comparedName : String) (kept : PoolFiles) (own : PoolActions) (key : String)
    (entry : Object) : Prop
  | held (member : Identity) (isMember : member ∈ grants.members)
      (holds : HoldsEntry (grantIn kept member.configDir) key entry)
  | notNewer (member : Identity) (compared : Compared runtime grants files comparedName key member)
      (theirs : Object)
      (has : oauthEntry (grantIn files member.configDir) key = some theirs ∨
        oauthEntry (grantIn kept member.configDir) key = some theirs)
      (old : isNewer entry theirs = false)
  | backedUp (configDir : String) (kind : BackupKind) (stamp : String) (before : Option FileText)
      (text : FileText) (wrote : .wrote none (.backup configDir kind stamp) before text ∈ own)
      (has : ((parseObject (some text)).bind fun fields => fields.get key) = some (.obj entry))

/-- Every OAuth entry of the pool's file is safe. -/
def AllSafe (comparedName : String) (kept : PoolFiles) (own : PoolActions) : Prop :=
  ∀ key entry, oauthEntry (grantIn files grants.pool.configDir) key = some entry →
    Safe runtime grants files comparedName kept own key entry

/-- What a call is to do: when it returns, no OAuth entry of a pool file that it replaced is lost; and
no vault has received an entry that belongs to another member. -/
structure KeepsEntries {Result : Type} (comparedName : String) (outcome : Except String Result)
    (kept : PoolFiles) (own : PoolActions) : Prop where
  safe : ∀ result, outcome = .ok result → ∀ before after,
    .wrote none (.credentials grants.pool.configDir) before after ∈ own → ∀ key entry,
      oauthEntry (parseObject before) key = some entry →
      Safe runtime grants files comparedName kept own key entry
  fits : ∀ configDir before after, configDir ≠ grants.pool.configDir →
    .wrote none (.credentials configDir) before after ∈ own →
    VaultFits runtime grants files configDir before after

theorem mem_of_ownerIn {owner : Identity} (isOwner : ownerIn runtime grants files = some owner) :
    owner ∈ grants.members := by
  unfold ownerIn at isOwner
  split_ifs at isOwner
  cases account : accountOf (piSpec runtime) (files (.credentials grants.pool.configDir)) with
  | none => rw [account] at isOwner; cases isOwner
  | some accountId =>
    rw [account] at isOwner
    obtain ⟨member, -, rfl⟩ := Option.map_eq_some_iff.mp isOwner
    exact member.property

variable {runtime grants files} in
theorem Compared.member {comparedName key : String} {member : Identity}
    (compared : Compared runtime grants files comparedName key member) :
    member ∈ grants.members := by
  unfold Compared at compared
  split_ifs at compared
  · exact mem_of_ownerIn runtime grants files compared
  · exact List.mem_of_find?_eq_some compared.2

end Properties

/-! ### Stages of a call -/

section Stages

variable {runtime : TokenRuntime} {grants : MemberPool} {files kept : PoolFiles}
  {own : PoolActions}

/-- No other program writes. -/
abbrev alone (_ : PoolFile) : Prop := False

/-- An action that a call may take before it replaces the pool's file. -/
def Fits (runtime : TokenRuntime) (grants : MemberPool) (files : PoolFiles) :
    Event PoolFile FileText (Option ℕ) → Prop
  | .wrote _ (.credentials configDir) before after =>
      configDir ≠ grants.pool.configDir ∧ VaultFits runtime grants files configDir before after
  | _ => True

def AllFit (runtime : TokenRuntime) (grants : MemberPool) (files : PoolFiles)
    (own : PoolActions) : Prop :=
  ∀ event ∈ own, Fits runtime grants files event

theorem AllFit.read (fits : AllFit runtime grants files own) (file : PoolFile)
    (found : Option FileText) : AllFit runtime grants files (.read none file found :: own) :=
  List.forall_mem_cons.mpr ⟨trivial, fits⟩

theorem AllFit.backUp (fits : AllFit runtime grants files own) (configDir : String)
    (kind : BackupKind) (stamp : String) (before : Option FileText) (text : FileText) :
    AllFit runtime grants files (.wrote none (.backup configDir kind stamp) before text :: own) :=
  List.forall_mem_cons.mpr ⟨trivial, fits⟩

theorem AllFit.vault (fits : AllFit runtime grants files own) {configDir : String}
    (different : configDir ≠ grants.pool.configDir) {before : Option FileText} {after : FileText}
    (vault : VaultFits runtime grants files configDir before after) :
    AllFit runtime grants files (.wrote none (.credentials configDir) before after :: own) :=
  List.forall_mem_cons.mpr ⟨⟨different, vault⟩, fits⟩

/-- Only looking changes no file and goes on with what is there. -/
def Looks {Result : Type} (runtime : TokenRuntime) (grants : MemberPool) (files kept : PoolFiles)
    (results : Result → Prop) (outcome : Except String Result) (after : PoolFiles)
    (own : PoolActions) : Prop :=
  after = kept ∧ AllFit runtime grants files own ∧ ∀ result, outcome = .ok result → results result

theorem AllFit.looks {Result : Type} {results : Result → Prop} {result : Result}
    (fits : AllFit runtime grants files own) (holds : results result) :
    Looks runtime grants files kept results (.ok result) kept own :=
  ⟨rfl, fits, fun _ same => Except.ok.inj same ▸ holds⟩

theorem AllFit.looksFailed {Result : Type} {results : Result → Prop}
    (fits : AllFit runtime grants files own) (message : String) :
    Looks runtime grants files kept results (.error message) kept own :=
  ⟨rfl, fits, fun _ same => by cases same⟩

theorem against_readMergeBackups (configDir : String) (stamps : List String) :
    ∀ own, AllFit runtime grants files own → (readMergeBackups configDir stamps).against alone
      (Looks runtime grants files kept fun _ => True) kept own := by
  induction stamps with
  | nil => exact fun own fits => fits.looks trivial
  | cons stamp stamps inductionHypothesis =>
    intro own fits found _
    refine Program.against_bind (inductionHypothesis _ (fits.read _ found))
      (fun rest after own looks => ?_) fun message after own looks => ?_
    · obtain ⟨rfl, fits, -⟩ := looks
      exact fits.looks trivial
    · obtain ⟨rfl, fits, -⟩ := looks
      exact fits.looksFailed message

/-- The other members' vaults are among the grants that are looked at. -/
theorem against_otherGrants (listing : String → List String) (owner : Identity)
    (members : List Identity) :
    ∀ own, AllFit runtime grants files own → (otherGrants listing owner members).against alone
      (Looks runtime grants files kept fun others => ∀ member ∈ members,
        member.configDir ≠ owner.configDir → ∀ grant, grantIn kept member.configDir = some grant →
          grant ∈ others) kept own := by
  induction members with
  | nil => exact fun own fits => fits.looks fun _ member => nomatch member
  | cons member members inductionHypothesis =>
    intro own fits
    unfold otherGrants
    by_cases own : member.configDir = owner.configDir
    · rw [if_pos own]
      refine Program.against_mono (fun outcome after own' looks => ?_) _ _ _
        (inductionHypothesis _ fits)
      exact ⟨looks.1, looks.2.1, fun others ended =>
        List.forall_mem_cons.mpr ⟨absurd own, looks.2.2 others ended⟩⟩
    · rw [if_neg own]
      intro found answer
      have same := answer id
      refine Program.against_bind (against_readMergeBackups _ _ _ (fits.read _ found))
        (fun backups after own' looks => ?_) fun message after own' looks => ?_
      · obtain ⟨rfl, fits, -⟩ := looks
        refine Program.against_bind (inductionHypothesis _ fits) (fun rest after own' looks => ?_)
          fun message after own' looks => ?_
        · obtain ⟨rfl, fits, among⟩ := looks
          refine fits.looks (List.forall_mem_cons.mpr ⟨fun _ grant has => ?_, ?_⟩)
          · rw [grantIn, ← same] at has
            exact List.mem_append_left _ (List.mem_append_left _ (by rw [has]; simp))
          · exact fun other isOther apart grant has =>
              List.mem_append_right _ (among _ rfl other isOther apart grant has)
        · obtain ⟨rfl, fits, -⟩ := looks
          exact fits.looksFailed message
      · obtain ⟨rfl, fits, -⟩ := looks
        exact fits.looksFailed message

end Stages

/-! ### Writing back -/

section WriteBack

variable {runtime : TokenRuntime} {grants : MemberPool} {files : PoolFiles} {own : PoolActions}
  {owner : Identity} {comparedName : String} {ownerGrant poolGrant : Object}
  {mode : WriteBackMode} {outcome : WriteBackOutcome}

/-- The pool's file has the account of the owner. -/
structure OwnedBy (runtime : TokenRuntime) (grants : MemberPool) (files : PoolFiles)
    (comparedName : String) (mode : WriteBackMode) (owner : Identity) : Prop where
  member : owner ∈ grants.members
  attributable : Attributable runtime grants files comparedName owner
  account : ∃ accountId,
    accountOf (piSpec runtime) (files (.credentials owner.configDir)) = some accountId ∧
    accountOf (piSpec runtime) (files (.credentials grants.pool.configDir)) = some accountId
  mode : mode = .same → some owner.name = grants.pool.active

theorem claimed_of_foreignClaim {own entry : Object}
    (unclaimed : foreignClaim runtime own entry = false) {account : String}
    (claims : accountOfEntry runtime entry = some account) :
    accountOfEntry runtime own = some account := by
  unfold foreignClaim at unclaimed
  unfold accountOfEntry at claims ⊢
  cases theirs : claimedAccount runtime entry with
  | none => rw [theirs] at claims; cases claims
  | some claimed =>
    rw [theirs] at unclaimed claims
    rw [not_not.mp (of_decide_eq_false unclaimed)]
    exact claims

theorem vaultFits_merge (owned : OwnedBy runtime grants files comparedName mode owner)
    (inVault : grantIn files owner.configDir = some ownerGrant)
    (inPool : grantIn files grants.pool.configDir = some poolGrant) {others : List Object}
    (among : ∀ member ∈ grants.members, member.configDir ≠ owner.configDir → ∀ grant,
      grantIn files member.configDir = some grant → grant ∈ others) {merge : Option GrantMerge}
    (ended : newerInto runtime (some ownerGrant) poolGrant mode others = .ok merge) :
    VaultFits runtime grants files owner.configDir (files (.credentials owner.configDir))
      (stringify (mergedVault ownerGrant merge)) := by
  intro key changed
  rw [parseObject_stringify, Option.bind_some, Object.get_written] at changed
  change _ ≠ ((grantIn files owner.configDir).bind _).map _ at changed
  rw [inVault] at changed
  rcases (newerInto_spec ended).1 key with same | ⟨own, entry, isEntry, moved, -⟩
  · exact absurd (congrArg (Option.map Json.written) same) changed
  refine ⟨own, entry, ?_, inPool ▸ isEntry, fun account claims => ?_,
    fun member isMember apart theirs isTheirs => ?_, fun notActive => ?_⟩
  · change oauthEntry (grantIn files owner.configDir) key = some own
    exact inVault ▸ moved.has
  · by_cases kimi : key = kimiKey
    · subst kimi
      obtain ⟨accountId, ofOwner, ofPool⟩ := owned.account
      obtain ⟨_, isOwn, ownClaims⟩ := exists_kimiEntry_of_id ofOwner
      obtain ⟨_, isPool, poolClaims⟩ := exists_kimiEntry_of_id ofPool
      change kimiEntry (grantIn files owner.configDir) = _ at isOwn
      change kimiEntry (grantIn files grants.pool.configDir) = _ at isPool
      rw [inVault] at isOwn
      rw [inPool] at isPool
      cases isOwn.symm.trans moved.has
      cases isPool.symm.trans isEntry
      rw [ownClaims, ← claims, poolClaims]
    · exact claimed_of_foreignClaim (moved.claimed kimi) claims
  · by_cases kimi : key = kimiKey
    · subst kimi
      exact owned.attributable.unshared entry own (inPool ▸ isEntry) (inVault ▸ moved.has)
        moved.newer moved.different member isMember apart theirs isTheirs
    · cases has : grantIn files member.configDir with
      | none => rw [has] at isTheirs; cases isTheirs
      | some grant =>
        rw [has] at isTheirs
        exact disjoint_of_shareTokens (sharedChain_false (moved.unshared kimi) grant
          (among member isMember apart grant has) theirs isTheirs)
  · cases mode with
    | capture => exact moved.capture rfl
    | same => exact absurd (owned.mode rfl) (notActive owner owned.member rfl)

/-- What is an OAuth entry in a vault is one in the merged vault. -/
theorem oauthAt_merge {others : List Object} {merge : Option GrantMerge}
    (ended : newerInto runtime (some ownerGrant) poolGrant mode others = .ok merge) {key : String}
    (before : OauthAt (some ownerGrant) key) :
    OauthAt (some (writtenMembers (mergedVault ownerGrant merge))) key := by
  intro value has
  rcases (newerInto_spec ended).1 key with same | ⟨own, entry, isEntry, moved, result⟩
  · rw [Option.bind_some, Object.get_written, same] at has
    obtain ⟨original, isOriginal, -⟩ := Option.map_eq_some_iff.mp has
    obtain ⟨fields, isFields⟩ := Option.isSome_iff_exists.mp (before original isOriginal)
    obtain ⟨found, oauth⟩ := oauthEntry_eq_some.mp isFields
    rw [oauthEntry_written (same.trans found) oauth]
    rfl
  · obtain ⟨held, isHeld, -⟩ := holdsEntry_spread result moved.oauth
    rw [isHeld]
    rfl

/-- The account's own entry is in the merged vault, or was not newer. -/
theorem kimi_merge {others : List Object} {merge : Option GrantMerge}
    (ended : newerInto runtime (some ownerGrant) poolGrant mode others = .ok merge)
    {own entry : Object} (isOwn : kimiEntry (some ownerGrant) = some own)
    (isEntry : kimiEntry (some poolGrant) = some entry) :
    HoldsEntry (some (writtenMembers (mergedVault ownerGrant merge))) kimiKey entry ∨
      isNewer entry own = false := by
  obtain ⟨entries, moves⟩ := newerInto_spec ended
  cases newer : isNewer entry own with
  | false => exact Or.inr rfl
  | true =>
    refine Or.inl ?_
    cases same : sameTokens entry own with
    | false =>
      exact holdsEntry_spread (moves own entry isEntry isOwn newer same).2
        (oauthEntry_eq_some.mp isEntry).2
    | true =>
      have holds := holdsEntry_of_sameTokens isOwn same
      rcases entries kimiKey with unchanged | ⟨other, last, isLast, moved, result⟩
      · exact holds.written unchanged
      · cases isEntry.symm.trans isLast
        exact holdsEntry_spread result moved.oauth

/-- Where nothing moves, the vault has the account's own entry, or that was not newer. -/
theorem kimi_of_unmoved {others : List Object} {merge : Option GrantMerge}
    (ended : newerInto runtime (some ownerGrant) poolGrant mode others = .ok merge)
    (unmoved : (merge.bind fun merge => merge.next) = none) {own entry : Object}
    (isOwn : kimiEntry (some ownerGrant) = some own)
    (isEntry : kimiEntry (some poolGrant) = some entry) :
    HoldsEntry (some ownerGrant) kimiKey entry ∨ isNewer entry own = false := by
  cases newer : isNewer entry own with
  | false => exact Or.inr rfl
  | true =>
    cases same : sameTokens entry own with
    | true => exact Or.inl (holdsEntry_of_sameTokens isOwn same)
    | false =>
      have moves := ((newerInto_spec ended).2 own entry isEntry isOwn newer same).1
      rw [unmoved] at moves
      cases moves

/-- A vault has the account's own entry of the pool's file, or that is not newer than the vault's. -/
def KimiKept (grants : MemberPool) (files after : PoolFiles) (owner : Identity) : Prop :=
  ∀ entry, kimiEntry (grantIn files grants.pool.configDir) = some entry →
    HoldsEntry (grantIn after owner.configDir) kimiKey entry ∨
      ∃ theirs, kimiEntry (grantIn files owner.configDir) = some theirs ∧
        isNewer entry theirs = false

/-- What the write-back has done. -/
structure WroteBack (runtime : TokenRuntime) (grants : MemberPool) (files : PoolFiles)
    (owner : Identity) (outcome : Except String WriteBackOutcome) (after : PoolFiles)
    (own : PoolActions) : Prop where
  fits : AllFit runtime grants files own
  others : ∀ configDir, configDir ≠ owner.configDir →
    after (.credentials configDir) = files (.credentials configDir)
  oauth : ∀ key, OauthAt (grantIn files owner.configDir) key →
    OauthAt (grantIn after owner.configDir) key
  kimi : ∀ result, outcome = .ok result → KimiKept grants files after owner

theorem WroteBack.of_same {outcome : Except String WriteBackOutcome} {after : PoolFiles}
    (fits : AllFit runtime grants files own)
    (vaults : ∀ configDir, after (.credentials configDir) = files (.credentials configDir))
    (kimi : ∀ result, outcome = .ok result → KimiKept grants files files owner) :
    WroteBack runtime grants files owner outcome after own := by
  have vault : grantIn after owner.configDir = grantIn files owner.configDir :=
    congrArg parseObject (vaults owner.configDir)
  refine ⟨fits, fun configDir _ => vaults configDir, fun key before => ?_,
    fun result ended entry isEntry => ?_⟩
  · rw [vault]
    exact before
  · rw [vault]
    exact kimi result ended entry isEntry

/-- A backup of a merge leaves the vaults alone. -/
theorem against_backUpMerge (surroundings : Surroundings) (backup : Option Object)
    (fits : AllFit runtime grants files own) :
    (backUpMerge (piSpec runtime) surroundings owner backup).against alone
      (fun _ after own => AllFit runtime grants files own ∧
        ∀ configDir, after (.credentials configDir) = files (.credentials configDir)) files own := by
  cases backup with
  | none => exact ⟨fits, fun _ => rfl⟩
  | some kept =>
    refine ⟨fun before _ => ⟨fits.backUp _ _ _ _ _, fun configDir => ?_⟩, fits, fun _ => rfl⟩
    exact Function.update_of_ne PoolFile.noConfusion _ _

theorem against_writeMerge (surroundings : Surroundings)
    (owned : OwnedBy runtime grants files comparedName mode owner)
    (inVault : grantIn files owner.configDir = some ownerGrant)
    (inPool : grantIn files grants.pool.configDir = some poolGrant) {others : List Object}
    (among : ∀ member ∈ grants.members, member.configDir ≠ owner.configDir → ∀ grant,
      grantIn files member.configDir = some grant → grant ∈ others) {merge : Option GrantMerge}
    (ended : newerInto runtime (some ownerGrant) poolGrant mode others = .ok merge)
    (fits : AllFit runtime grants files own) :
    (writeMerge (piSpec runtime) surroundings owner merge).against alone
      (WroteBack runtime grants files owner) files own := by
  obtain ⟨accountId, ofOwner, -⟩ := owned.account
  obtain ⟨theirs, isTheirs, -⟩ := exists_kimiEntry_of_id ofOwner
  change kimiEntry (grantIn files owner.configDir) = _ at isTheirs
  refine Program.against_bind (against_backUpMerge surroundings _ fits)
    (fun _ kept own backedUp => ?_) fun message kept own backedUp => ?_
  · obtain ⟨fits, vaults⟩ := backedUp
    cases next : merge.bind fun merge => merge.next with
    | none =>
      refine WroteBack.of_same fits vaults fun _ _ entry isEntry => ?_
      rw [inPool] at isEntry
      rw [inVault] at isTheirs ⊢
      exact (kimi_of_unmoved ended next isTheirs isEntry).imp_right fun old => ⟨_, isTheirs, old⟩
    | some merged =>
      have same : mergedVault ownerGrant merge = merged := by rw [mergedVault, next]; rfl
      have vault : ∀ files : PoolFiles, grantIn (Function.update files
          (.credentials owner.configDir) (some (stringify merged))) owner.configDir =
            some (writtenMembers (mergedVault ownerGrant merge)) := by
        intro files
        rw [grantIn, Function.update_self, parseObject_stringify, same]
      refine ⟨fun before answer => ⟨?_, fun configDir other => ?_, fun key before => ?_,
        fun _ _ entry isEntry => ?_⟩, .of_same fits vaults fun _ same => by cases same⟩
      · refine fits.vault (grants.separate owner owned.member) ?_
        rw [(answer id).trans (vaults owner.configDir), ← same]
        exact vaultFits_merge owned inVault inPool among ended
      · rw [Function.update_of_ne (credentials_ne other)]
        exact vaults configDir
      · rw [vault]
        rw [inVault] at before
        exact oauthAt_merge ended before
      · rw [vault]
        rw [inPool] at isEntry
        rw [inVault] at isTheirs ⊢
        exact (kimi_merge ended isTheirs isEntry).imp_right fun old => ⟨_, isTheirs, old⟩
  · exact .of_same backedUp.1 backedUp.2 fun _ same => by cases same

theorem settledWriteBack_identical
    (settled : settledWriteBack (piSpec runtime) (some ownerGrant) poolGrant = some outcome)
    (same : ((piSpec runtime).identity (some ownerGrant)).id =
      ((piSpec runtime).identity (some poolGrant)).id) :
    fingerprint runtime ownerGrant = fingerprint runtime poolGrant := by
  unfold settledWriteBack at settled
  dsimp only at settled
  split_ifs at settled with usable different identical
  · exact absurd same different
  · exact identical

/-- The pool's entries go into their owner's vault, where they belong there. -/
theorem against_writeBackToOwner (surroundings : Surroundings)
    (owned : OwnedBy runtime grants files comparedName mode owner)
    (inPool : grantIn files grants.pool.configDir = some poolGrant)
    (fits : AllFit runtime grants files own) :
    (GrantFile.writeBackToOwner (piSpec runtime) surroundings owner poolGrant mode grants.members).against
      alone (WroteBack runtime grants files owner) files own := by
  intro found answer
  have fits := fits.read (.credentials owner.configDir) found
  have vault : parseObject found = grantIn files owner.configDir := congrArg parseObject (answer id)
  have usable := owned.attributable.usable
  obtain ⟨accountId, ofOwner, ofPool⟩ := owned.account
  change ((piSpec runtime).identity (grantIn files owner.configDir)).id = _ at ofOwner
  change ((piSpec runtime).identity (grantIn files grants.pool.configDir)).id = _ at ofPool
  dsimp only [Program.andThen]
  rw [vault]
  obtain ⟨accountEntry, isEntry, -⟩ := exists_kimiEntry_of_id ofOwner
  cases inVault : grantIn files owner.configDir with
  | none => rw [inVault] at isEntry; cases isEntry
  | some ownerGrant =>
    rw [inVault] at usable ofOwner
    rw [inPool] at ofPool
    cases settled : settledWriteBack (piSpec runtime) (some ownerGrant) poolGrant with
    | some outcome =>
      refine WroteBack.of_same fits (fun _ => rfl) fun _ _ entry isEntry => Or.inl ?_
      rw [inPool] at isEntry
      rw [inVault]
      exact holdsEntry_of_fingerprint
        (settledWriteBack_identical settled (ofOwner.trans ofPool.symm)) isEntry
    | none =>
      refine Program.against_bind (against_otherGrants _ _ _ _ fits)
        (fun others kept own looks => ?_) fun _ _ _ looks => ?_
      · obtain ⟨rfl, fits, among⟩ := looks
        rw [if_pos usable]
        show Program.against _ _ (Program.ofOutcome (newerInto runtime (some ownerGrant) poolGrant
          mode others) >>= _) _ _
        cases ended : newerInto runtime (some ownerGrant) poolGrant mode others with
        | error message => exact .of_same fits (fun _ => rfl) fun _ same => by cases same
        | ok merge => exact against_writeMerge surroundings owned inVault inPool (among _ rfl) ended fits
      · obtain ⟨rfl, fits, -⟩ := looks
        exact .of_same fits (fun _ => rfl) fun _ same => by cases same

end WriteBack

end AiSwitcher.Pi
