/-
This file proves that the calls of the Pi pool adapter neither lose nor leak a
provider's entry, where the pool has a usable login or nothing to lose, and where its
owner's vault has a usable login, meets the pool's OAuth entries with OAuth entries,
and no other member shares the tokens of the account's own entry.
-/

import AiSwitcher.Identities.Pool.PiWriteBack
import AiSwitcher.Library.Control

namespace AiSwitcher.Pi

open JavaScript Interleaving Pool GrantFile

/-! ### The end of a call -/

section Ends

variable {runtime : TokenRuntime} {grants : MemberPool} {files kept : PoolFiles}
  {own : PoolActions} {comparedName : String} {Result : Type}

/-- A call that has not replaced the pool's file. -/
theorem AllFit.keepsEntries (fits : AllFit runtime grants files own)
    (outcome : Except String Result) (kept : PoolFiles) :
    KeepsEntries runtime grants files comparedName outcome kept own :=
  ⟨fun _ _ _ _ wrote => absurd rfl (fits _ wrote).1, fun _ _ _ _ wrote => (fits _ wrote).2⟩

theorem Safe.cons {key : String} {entry : Object}
    (safe : Safe runtime grants files comparedName kept own key entry)
    (event : Event PoolFile FileText (Option ℕ)) :
    Safe runtime grants files comparedName kept (event :: own) key entry := by
  cases safe with
  | held member isMember holds => exact .held member isMember holds
  | notNewer member compared theirs has old => exact .notNewer member compared theirs has old
  | backedUp configDir kind stamp before text wrote has =>
    exact .backedUp configDir kind stamp before text (List.mem_cons_of_mem _ wrote) has

/-- Only what the members' vaults have counts. -/
theorem Safe.congr {key : String} {entry : Object} {after : PoolFiles}
    (safe : Safe runtime grants files comparedName kept own key entry)
    (vaults : ∀ member ∈ grants.members,
      after (.credentials member.configDir) = kept (.credentials member.configDir)) :
    Safe runtime grants files comparedName after own key entry := by
  have grant : ∀ member ∈ grants.members,
      grantIn after member.configDir = grantIn kept member.configDir :=
    fun member isMember => congrArg parseObject (vaults member isMember)
  cases safe with
  | held member isMember holds => exact .held member isMember (grant member isMember ▸ holds)
  | notNewer member compared theirs has old =>
    have isMember : member ∈ grants.members := compared.member
    exact .notNewer member compared theirs (grant member isMember ▸ has) old
  | backedUp configDir kind stamp before text wrote has =>
    exact .backedUp configDir kind stamp before text wrote has

theorem AllSafe.cons (safe : AllSafe runtime grants files comparedName kept own)
    (event : Event PoolFile FileText (Option ℕ)) :
    AllSafe runtime grants files comparedName kept (event :: own) :=
  fun key entry has => (safe key entry has).cons event

/-- The pool's file is replaced when its entries are safe. -/
theorem keepsEntries_replace (result : Result) (fits : AllFit runtime grants files own)
    (safe : AllSafe runtime grants files comparedName kept own) {before : Option FileText}
    (replaced : before = files (.credentials grants.pool.configDir)) (text : FileText) :
    KeepsEntries runtime grants files comparedName (.ok result)
      (Function.update kept (.credentials grants.pool.configDir) (some text))
      (.wrote none (.credentials grants.pool.configDir) before text :: own) := by
  refine ⟨fun _ _ first last wrote key entry has => ?_, fun configDir first last different wrote => ?_⟩
  · rcases List.mem_cons.mp wrote with same | wrote
    · cases same
      rw [replaced] at has
      refine ((safe key entry has).congr fun member isMember => ?_).cons _
      exact Function.update_of_ne (credentials_ne (grants.separate member isMember)) _ _
    · exact absurd rfl (fits _ wrote).1
  · rcases List.mem_cons.mp wrote with same | wrote
    · cases same
      exact absurd rfl different
    · exact (fits _ wrote).2

theorem KeepsEntries.read {outcome : Except String Result}
    (keeps : KeepsEntries runtime grants files comparedName outcome kept own) (file : PoolFile)
    (found : Option FileText) :
    KeepsEntries runtime grants files comparedName outcome kept (.read none file found :: own) := by
  refine ⟨fun result ended before after wrote key entry has => ?_,
    fun configDir before after different wrote => ?_⟩
  · obtain same | wrote := List.mem_cons.mp wrote
    · cases same
    · exact (keeps.safe result ended before after wrote key entry has).cons _
  · obtain same | wrote := List.mem_cons.mp wrote
    · cases same
    · exact keeps.fits configDir before after different wrote

theorem KeepsEntries.returning {Second : Type} {first : Result}
    (keeps : KeepsEntries runtime grants files comparedName (.ok first : Except String Result) kept
      own) (second : Except String Second) :
    KeepsEntries runtime grants files comparedName second kept own :=
  ⟨fun _ _ => keeps.safe first rfl, keeps.fits⟩

theorem KeepsEntries.failing {Second : Type} {outcome : Except String Result}
    (keeps : KeepsEntries runtime grants files comparedName outcome kept own) (message : String) :
    KeepsEntries runtime grants files comparedName (.error message : Except String Second) kept own :=
  ⟨fun _ same => (nomatch same), keeps.fits⟩

end Ends

/-! ### Swaps -/

section Swaps

variable {runtime : TokenRuntime} {grants : MemberPool} {files kept : PoolFiles}
  {own : PoolActions} {comparedName accountId : String} {poolGrant : Object}

theorem usable_isSome {grant : Option Object} (usable : (piSpec runtime).usable grant = true) :
    ∃ fields, grant = some fields := by
  cases grant with
  | none => cases usable
  | some fields => exact ⟨fields, rfl⟩

/-- The owner is looked for among the vaults. -/
theorem against_ownerByAccount (usable : (piSpec runtime).usable
      (grantIn files grants.pool.configDir) = true)
    (account : accountOf (piSpec runtime) (files (.credentials grants.pool.configDir)) =
      some accountId) (fits : AllFit runtime grants files own) :
    (ownerByAccount (accountOf (piSpec runtime)) grants.members accountId
      grants.pool.active).against alone (Looks runtime grants files files fun owner =>
        (owner.map fun owner => owner.val) = ownerIn runtime grants files ∧ ∀ member, owner = some member →
          accountOf (piSpec runtime) (files (.credentials member.val.configDir)) = some accountId)
      files own := by
  refine Program.against_mono (fun outcome after own found => ?_) _ files own
    (against_findOwner (fun _ _ => id) ?_ _ own fits)
  swap
  · exact fun _ _ _ found fits => AllFit.read fits _ found
  obtain ⟨same, fits, ended⟩ := found
  refine ⟨same, fits, fun owner isOwner => ?_⟩
  rw [ended] at isOwner
  have isOwner := Except.ok.inj isOwner
  refine ⟨?_, fun member isMember => ?_⟩
  · rw [ownerIn, if_pos usable, account, ← isOwner]
  · rw [isMember] at isOwner
    have has := List.find?_some isOwner
    exact of_decide_eq_true has

/-- What is known once the pool's grant has been written back. -/
structure PoolWrittenBack (runtime : TokenRuntime) (grants : MemberPool) (files : PoolFiles)
    (comparedName : String) (writeBack : WriteBackOutcome) (kept : PoolFiles) : Prop where
  pool : kept (.credentials grants.pool.configDir) = files (.credentials grants.pool.configDir)
  oauth : ∀ key, OauthAt (vaultOf grants files comparedName) key →
    OauthAt (vaultOf grants kept comparedName) key
  kimi : ∀ owner, ownerIn runtime grants files = some owner → KimiKept grants files kept owner
  unowned : ownerIn runtime grants files = none → writeBack = .noneUnknownOwner ∨
    writeBack = .noneAccountMismatch ∨
      (piSpec runtime).usable (grantIn files grants.pool.configDir) = false ∧ kept = files

theorem PoolWrittenBack.of_unowned {writeBack : WriteBackOutcome}
    (noOwner : ownerIn runtime grants files = none)
    (unowned : writeBack = .noneUnknownOwner ∨ writeBack = .noneAccountMismatch ∨
      (piSpec runtime).usable (grantIn files grants.pool.configDir) = false) :
    PoolWrittenBack runtime grants files comparedName writeBack files := by
  refine ⟨rfl, fun _ => id, fun owner isOwner => ?_, fun _ => unowned.imp_right (Or.imp_right ?_)⟩
  · rw [noOwner] at isOwner
    cases isOwner
  · exact fun unusable => ⟨unusable, rfl⟩

theorem ownerIn_of_unusable
    (unusable : (piSpec runtime).usable (grantIn files grants.pool.configDir) = false) :
    ownerIn runtime grants files = none := by
  rw [ownerIn, if_neg (Bool.eq_false_iff.mp unusable)]

theorem ownerIn_of_noAccount
    (noAccount : ((piSpec runtime).identity (grantIn files grants.pool.configDir)).id = none) :
    ownerIn runtime grants files = none := by
  rw [ownerIn]
  change accountOf (piSpec runtime) (files (.credentials grants.pool.configDir)) = none at noAccount
  rw [noAccount]
  split_ifs <;> rfl

/-- A pair of tokens that disagree names no account. -/
theorem id_of_hybrid {grant : Option Object}
    (hybrid : ((piSpec runtime).identity grant).hybrid = true) :
    ((piSpec runtime).identity grant).id = none := by
  change (pairIdentity runtime ((kimiEntry grant).bind access)
    ((kimiEntry grant).bind refresh)).hybrid = true at hybrid
  change (pairIdentity runtime ((kimiEntry grant).bind access)
    ((kimiEntry grant).bind refresh)).id = none
  unfold pairIdentity at hybrid ⊢
  dsimp only at hybrid ⊢
  rw [hybrid]
  rfl

/-- The vault that the pool is compared with keeps its OAuth entries. -/
theorem WroteBack.oauthOf {owner : Identity} {outcome : Except String WriteBackOutcome}
    (wroteBack : WroteBack runtime grants files owner outcome kept own) (name key : String)
    (before : OauthAt (vaultOf grants files name) key) :
    OauthAt (vaultOf grants kept name) key := by
  unfold vaultOf at before ⊢
  cases named : grants.members.find? fun member => member.name = name with
  | none =>
    rw [named] at before
    exact before
  | some member =>
    rw [named, Option.bind_some] at before
    rw [Option.bind_some]
    by_cases same : member.configDir = owner.configDir
    · rw [same] at before ⊢
      exact wroteBack.oauth key before
    · rw [grantIn, wroteBack.others _ same]
      exact before

/-- The owner of the pool's file, if there is one, can take its entries. -/
def Attributed (runtime : TokenRuntime) (grants : MemberPool) (files : PoolFiles)
    (comparedName : String) : Prop :=
  ∀ owner, ownerIn runtime grants files = some owner →
    Attributable runtime grants files comparedName owner

/-- How the write-back of a swap ends. -/
def WritesBack (runtime : TokenRuntime) (grants : MemberPool) (files : PoolFiles)
    (comparedName : String) {held : List String} :
    Except String (Attempt grants.members held (WriteBackOutcome × List String)) → PoolFiles →
      PoolActions → Prop
  | .ok (.needLock ..) => fun after own => after = files ∧ AllFit runtime grants files own
  | .ok (.done result) => fun after own => AllFit runtime grants files own ∧
      PoolWrittenBack runtime grants files comparedName result.1 after
  | .error _ => fun _ own => AllFit runtime grants files own

theorem against_writeBackPool (surroundings : Surroundings) (held : List String)
    (attributed : Attributed runtime grants files comparedName)
    (fits : AllFit runtime grants files own) :
    (writeBackPool (piSpec runtime) surroundings grants held
      (grantIn files grants.pool.configDir)).against alone
      (WritesBack runtime grants files comparedName) files own := by
  cases inPool : grantIn files grants.pool.configDir with
  | none =>
    have unusable : (piSpec runtime).usable (grantIn files grants.pool.configDir) = false := by
      rw [inPool]
      rfl
    exact ⟨fits, .of_unowned (ownerIn_of_unusable unusable) (Or.inr (Or.inr unusable))⟩
  | some poolGrant =>
    unfold writeBackPool
    dsimp only
    by_cases usable : (piSpec runtime).usable (some poolGrant) = true
    · rw [if_neg (not_not.mpr usable)]
      by_cases hybrid : ((piSpec runtime).identity (some poolGrant)).hybrid = true
      · rw [if_pos hybrid]
        refine ⟨fits, .of_unowned (ownerIn_of_noAccount ?_) (Or.inr (Or.inl rfl))⟩
        rw [inPool]
        exact id_of_hybrid hybrid
      · rw [if_neg hybrid]
        cases account : ((piSpec runtime).identity (some poolGrant)).id with
        | none =>
          refine ⟨fits, .of_unowned (ownerIn_of_noAccount ?_) (Or.inl rfl)⟩
          rw [inPool]
          exact account
        | some accountId =>
          have ofPool : accountOf (piSpec runtime) (files (.credentials grants.pool.configDir)) =
              some accountId := by
            change ((piSpec runtime).identity (grantIn files grants.pool.configDir)).id = _
            rw [inPool]
            exact account
          refine Program.against_bind (against_ownerByAccount (inPool ▸ usable) ofPool fits)
            (fun owner kept own looks => ?_) fun _ _ _ looks => looks.2.1
          obtain ⟨rfl, fits, isOwner⟩ := looks
          obtain ⟨isOwner, ofOwner⟩ := isOwner owner rfl
          cases owner with
          | none => exact ⟨fits, .of_unowned isOwner.symm (Or.inl rfl)⟩
          | some owner =>
            dsimp only
            by_cases unheld : owner.val.configDir ∉ held
            · rw [dif_pos unheld]
              exact ⟨rfl, fits⟩
            · rw [dif_neg unheld]
              have owned : OwnedBy runtime grants kept comparedName
                  (if some owner.val.name = grants.pool.active then .same else .capture)
                  owner.val := by
                refine ⟨owner.property, attributed _ isOwner.symm, ⟨accountId, ofOwner owner rfl,
                  ofPool⟩, fun isSame => ?_⟩
                split_ifs at isSame with active
                exact active
              refine Program.against_bind (against_writeBackToOwner surroundings owned inPool fits)
                (fun outcome after own wroteBack => ?_) fun _ _ _ wroteBack => wroteBack.fits
              refine ⟨wroteBack.fits, wroteBack.others _ (grants.separate _ owner.property).symm,
                wroteBack.oauthOf _, fun other isOther => ?_, fun noOwner => ?_⟩
              · cases isOwner.trans isOther
                exact wroteBack.kimi outcome rfl
              · cases isOwner.trans noOwner
    · rw [if_pos usable]
      rw [Bool.not_eq_true, ← inPool] at usable
      exact ⟨fits, .of_unowned (ownerIn_of_unusable usable) (Or.inr (Or.inr usable))⟩

/-- The pool has a usable login, or none of its OAuth entries would be lost: it is in a vault or not
newer than in the one it is compared with, or the test for such entries finds one. -/
def NothingToLose (runtime : TokenRuntime) (grants : MemberPool) (files : PoolFiles)
    (comparedName : String) : Prop :=
  (piSpec runtime).usable (grantIn files grants.pool.configDir) = false →
    AllSafe runtime grants files comparedName files [] ∨
      ((piSpec runtime).identity (grantIn files grants.pool.configDir)).id ≠ none ∧
        ∃ poolGrant, grantIn files grants.pool.configDir = some poolGrant ∧
          hasPoolOnlyContent poolGrant (vaultOf grants files comparedName) = .ok true

/-- The pool is compared with a vault. -/
theorem against_poolOnlyContent (target : Identity) (fits : AllFit runtime grants files own) :
    (poolOnlyContent (piSpec runtime) grants target (grantIn files grants.pool.configDir)).against
      alone (Looks runtime grants files kept fun poolOnly => ∀ poolGrant,
        grantIn files grants.pool.configDir = some poolGrant →
        ((piSpec runtime).identity (some poolGrant)).id ≠ none →
        hasPoolOnlyContent poolGrant
          (vaultOf grants kept (grants.pool.active.getD target.name)) = .ok poolOnly) kept own := by
  cases grantIn files grants.pool.configDir with
  | none => exact fits.looks fun _ same => by cases same
  | some poolGrant =>
    unfold poolOnlyContent
    dsimp only
    by_cases skipped : ((piSpec runtime).identity (some poolGrant)).id = none ∨
        ((piSpec runtime).identity (some poolGrant)).hybrid = true
    · rw [if_pos skipped]
      refine fits.looks fun other same account => absurd ?_ account
      cases same
      exact skipped.elim id id_of_hybrid
    · rw [if_neg skipped]
      have compare : ∀ own, AllFit runtime grants files own → ∀ vault,
          vault = vaultOf grants kept (grants.pool.active.getD target.name) →
          (Program.ofOutcome (GrantFile.hasPoolOnlyContent (piSpec runtime) poolGrant vault) :
            PoolProgram Bool).against alone (Looks runtime grants files kept fun poolOnly => ∀ other,
              some poolGrant = some other → ((piSpec runtime).identity (some other)).id ≠ none →
              hasPoolOnlyContent other
                (vaultOf grants kept (grants.pool.active.getD target.name)) = .ok poolOnly)
            kept own := by
        rintro own fits _ rfl
        change (Program.ofOutcome (hasPoolOnlyContent poolGrant _)).against _ _ _ _
        cases ended : hasPoolOnlyContent poolGrant
            (vaultOf grants kept (grants.pool.active.getD target.name)) with
        | error message => exact fits.looksFailed message
        | ok poolOnly =>
          refine fits.looks fun other same _ => ?_
          cases same
          exact ended
      unfold readVault comparedMember
      cases named : grants.members.find? fun member =>
          member.name = grants.pool.active.getD target.name with
      | none =>
        refine compare own fits _ ?_
        rw [vaultOf, named]
        rfl
      | some member =>
        intro found answer
        refine compare _ (fits.read _ found) _ ?_
        rw [vaultOf, named, answer id]
        rfl

/-- A copy of the pool's file has all its entries. -/
theorem allSafe_of_backUp {text : FileText} (inPool : files (.credentials grants.pool.configDir) =
      some text) (configDir : String) (kind : BackupKind) (stamp : String)
    (before : Option FileText) (kept : PoolFiles) (own : PoolActions) :
    AllSafe runtime grants files comparedName kept
      (.wrote none (.backup configDir kind stamp) before text :: own) := by
  intro key entry has
  refine .backedUp configDir kind stamp before text List.mem_cons_self ?_
  rw [← inPool]
  exact (oauthEntry_eq_some.mp has).1

/-- An entry that the test passes over, and that faces an OAuth entry, is in the compared vault or
not newer. -/
theorem safe_of_compared {key : String} {entry : Object} (other : key ≠ kimiKey)
    (isEntry : oauthEntry (some poolGrant) key = some entry)
    (account : accountOf (piSpec runtime) (files (.credentials grants.pool.configDir)) ≠ none)
    (test : hasPoolOnlyContent poolGrant (vaultOf grants kept comparedName) = .ok false)
    (facing : OauthAt (vaultOf grants kept comparedName) key) :
    Safe runtime grants files comparedName kept own key entry := by
  obtain ⟨has, oauth⟩ := oauthEntry_eq_some.mp isEntry
  obtain ⟨theirs, isTheirs, safe⟩ := of_isPoolOnly_false
    (isPoolOnly_of_hasPoolOnlyContent test has) oauth other facing
  unfold vaultOf at isTheirs
  cases named : grants.members.find? fun member => member.name = comparedName with
  | none => rw [named] at isTheirs; cases isTheirs
  | some member =>
    rw [named, Option.bind_some] at isTheirs
    have isMember := List.mem_of_find?_eq_some named
    rcases safe with old | same
    · refine .notNewer member ?_ theirs (Or.inr isTheirs) old
      rw [Compared, if_neg other]
      exact ⟨account, named⟩
    · exact .held member isMember (holdsEntry_of_sameTokens isTheirs same)

theorem safe_of_kimiKept {owner : Identity} {entry : Object}
    (isOwner : ownerIn runtime grants files = some owner)
    (kimi : KimiKept grants files kept owner)
    (isEntry : kimiEntry (grantIn files grants.pool.configDir) = some entry) :
    Safe runtime grants files comparedName kept own kimiKey entry := by
  rcases kimi entry isEntry with holds | ⟨theirs, isTheirs, old⟩
  · exact .held owner (mem_of_ownerIn _ _ _ isOwner) holds
  · refine .notNewer owner ?_ theirs (Or.inl isTheirs) old
    rw [Compared, if_pos rfl]
    exact isOwner

theorem accountOf_of_ownerIn {owner : Identity} (isOwner : ownerIn runtime grants files = some owner) :
    accountOf (piSpec runtime) (files (.credentials grants.pool.configDir)) ≠ none := by
  intro noAccount
  rw [ownerIn_of_noAccount noAccount] at isOwner
  cases isOwner

/-- Where the pool's file is not copied, its entries are safe. -/
theorem allSafe_of_writtenBack {writeBack : WriteBackOutcome}
    (attributed : Attributed runtime grants files comparedName)
    (nothing : NothingToLose runtime grants files comparedName)
    (written : PoolWrittenBack runtime grants files comparedName writeBack kept)
    (owned : ¬ (writeBack = .noneUnknownOwner ∨ writeBack = .noneAccountMismatch))
    (test : ∀ poolGrant, grantIn files grants.pool.configDir = some poolGrant →
      ((piSpec runtime).identity (some poolGrant)).id ≠ none →
      hasPoolOnlyContent poolGrant (vaultOf grants kept comparedName) = .ok false) :
    AllSafe runtime grants files comparedName kept own := by
  intro key entry isEntry
  cases isOwner : ownerIn runtime grants files with
  | some owner =>
    by_cases kimi : key = kimiKey
    · subst kimi
      exact safe_of_kimiKept isOwner (written.kimi owner isOwner) isEntry
    · have account := accountOf_of_ownerIn isOwner
      cases inPool : grantIn files grants.pool.configDir with
      | none => rw [inPool] at isEntry; cases isEntry
      | some poolGrant =>
        rw [inPool] at isEntry
        refine safe_of_compared kimi isEntry account (test poolGrant inPool ?_)
          (written.oauth key ((attributed owner isOwner).facing key entry kimi (inPool ▸ isEntry)))
        rw [← inPool]
        exact account
  | none =>
    obtain ⟨unusable, rfl⟩ := (written.unowned isOwner).elim (fun same => absurd (Or.inl same) owned)
      (Or.elim · (fun same => absurd (Or.inr same) owned) id)
    rcases nothing unusable with safe | ⟨account, poolGrant, inPool, found⟩
    · cases safe key entry isEntry with
      | held member isMember holds => exact .held member isMember holds
      | notNewer member compared theirs has old => exact .notNewer member compared theirs has old
      | backedUp configDir kind stamp before text wrote has => cases wrote
    · rw [inPool] at account
      rw [test poolGrant inPool account] at found
      cases found

/-- The pool's file may now be replaced; the vaults are as they were. -/
def Secured {Result : Type} (runtime : TokenRuntime) (grants : MemberPool) (files : PoolFiles)
    (comparedName : String) (kept : PoolFiles) (outcome : Except String Result) (after : PoolFiles)
    (own : PoolActions) : Prop :=
  AllFit runtime grants files own ∧ ∀ result, outcome = .ok result →
    (∀ configDir, after (.credentials configDir) = kept (.credentials configDir)) ∧
      AllSafe runtime grants files comparedName after own

/-- What cannot go back is copied. -/
theorem against_backUpSwap (surroundings : Surroundings) {writeBack : WriteBackOutcome}
    {poolOnly : Bool} (fits : AllFit runtime grants files own)
    (safe : ¬ (poolOnly = true ∨ writeBack = .noneUnknownOwner ∨ writeBack = .noneAccountMismatch) →
      AllSafe runtime grants files comparedName kept own) :
    (backUpSwap (piSpec runtime) surroundings grants.pool.configDir writeBack poolOnly
      (files (.credentials grants.pool.configDir))).against alone
      (Secured runtime grants files comparedName kept) kept own := by
  cases inPool : files (.credentials grants.pool.configDir) with
  | none =>
    refine ⟨fits, fun _ _ => ⟨fun _ => rfl, fun key entry isEntry => ?_⟩⟩
    rw [grantIn, inPool] at isEntry
    cases isEntry
  | some text =>
    unfold backUpSwap
    dsimp only
    by_cases lacking : poolOnly = true ∨ writeBack = .noneUnknownOwner ∨ writeBack = .noneAccountMismatch
    · rw [if_pos lacking]
      refine ⟨fun before _ => ⟨fits.backUp _ _ _ _ _, fun _ _ => ⟨fun configDir => ?_,
        allSafe_of_backUp inPool _ _ _ _ _ _⟩⟩, fits, fun _ same => by cases same⟩
      exact Function.update_of_ne PoolFile.noConfusion _ _
    · rw [if_neg lacking]
      exact ⟨fits, fun _ _ => ⟨fun _ => rfl, safe lacking⟩⟩

/-- The text is a login of the account. -/
def IsLoginOf (runtime : TokenRuntime) (accountId : String) (text : FileText) : Prop :=
  accountOf (piSpec runtime) (some text) = some accountId

theorem usableLogin_ok {target : Identity} {text : Option FileText} {login : FileText × String}
    (usable : usableLogin (piSpec runtime) target text = .ok login) :
    text = some login.1 ∧ IsLoginOf runtime login.2 login.1 := by
  cases text with
  | none => cases usable
  | some vault =>
    unfold usableLogin at usable
    dsimp only at usable
    split_ifs at usable
    · cases account : accountOf (piSpec runtime) (some vault) with
      | none => rw [account] at usable; cases usable
      | some accountId =>
        rw [account] at usable
        cases usable
        exact ⟨rfl, account⟩
    · cases usable

theorem against_currentText (target : Identity) {targetText : FileText} {targetId : String}
    (login : IsLoginOf runtime targetId targetText) (writeBack : WriteBackOutcome)
    (fits : AllFit runtime grants files own)
    (safe : AllSafe runtime grants files comparedName kept own) :
    (currentText (piSpec runtime) target targetText targetId writeBack).against alone
      (fun outcome after own => after = kept ∧ AllFit runtime grants files own ∧
        AllSafe runtime grants files comparedName kept own ∧
        ∀ text, outcome = .ok text → IsLoginOf runtime targetId text) kept own := by
  unfold currentText
  split_ifs
  · intro found _
    dsimp only [Program.andThen]
    cases usable : usableLogin (piSpec runtime) target found with
    | error message =>
      exact ⟨rfl, fits.read _ _, safe.cons _, fun _ same => Except.ok.inj same ▸ login⟩
    | ok fresh =>
      refine ⟨rfl, fits.read _ _, safe.cons _, fun text same => Except.ok.inj same ▸ ?_⟩
      split_ifs with sameAccount
      · exact sameAccount ▸ (usableLogin_ok usable).2
      · exact login
  · exact ⟨rfl, fits, safe, fun _ same => Except.ok.inj same ▸ login⟩

/-- What is installed is what is found afterwards. -/
theorem against_install {text : FileText} {targetId : String}
    (login : IsLoginOf runtime targetId text) (poolText : Option FileText)
    (pool : kept (.credentials grants.pool.configDir) = files (.credentials grants.pool.configDir))
    (fits : AllFit runtime grants files own)
    (safe : AllSafe runtime grants files comparedName kept own) :
    (install (piSpec runtime) grants.pool.configDir text targetId poolText).against alone
      (KeepsEntries runtime grants files comparedName) kept own := by
  refine ⟨fun before answer found same => ?_, fits.keepsEntries _ _⟩
  have installed : found = some text := (same id).trans (Function.update_self _ _ _)
  show Program.against _ _ (if accountOf (piSpec runtime) found = some targetId then _ else _) _ _
  rw [installed, if_pos (show accountOf (piSpec runtime) (some text) = some targetId from login)]
  exact (keepsEntries_replace () fits safe ((answer id).trans pool) text).read _ _

theorem against_replacePool (surroundings : Surroundings) (target : Identity)
    {targetText : FileText} {targetId : String} (login : IsLoginOf runtime targetId targetText)
    {writeBack : WriteBackOutcome} (notes : List String)
    (attributed : Attributed runtime grants files (grants.pool.active.getD target.name))
    (nothing : NothingToLose runtime grants files (grants.pool.active.getD target.name))
    (written : PoolWrittenBack runtime grants files (grants.pool.active.getD target.name) writeBack
      kept)
    (fits : AllFit runtime grants files own) :
    (replacePool (piSpec runtime) surroundings grants target targetText targetId
      (files (.credentials grants.pool.configDir)) writeBack notes).against alone
      (KeepsEntries runtime grants files (grants.pool.active.getD target.name)) kept own := by
  refine Program.against_bind (against_poolOnlyContent target fits)
    (fun poolOnly kept own looks => ?_) fun _ _ _ looks => looks.2.1.keepsEntries _ _
  obtain ⟨rfl, fits, test⟩ := looks
  have safe : ¬ (poolOnly = true ∨ writeBack = .noneUnknownOwner ∨ writeBack = .noneAccountMismatch) →
      AllSafe runtime grants files (grants.pool.active.getD target.name) kept own := by
    intro carried
    rw [not_or, Bool.not_eq_true] at carried
    refine allSafe_of_writtenBack attributed nothing written carried.2 ?_
    intro poolGrant inPool account
    rw [← carried.1]
    exact test poolOnly rfl poolGrant inPool account
  refine Program.against_bind (against_backUpSwap surroundings fits safe)
    (fun backupNotes after own backedUp => ?_) fun _ _ _ backedUp => backedUp.1.keepsEntries _ _
  obtain ⟨vaults, safe⟩ := backedUp.2 backupNotes rfl
  refine Program.against_bind (against_currentText target login writeBack backedUp.1 safe)
    (fun text kept own current => ?_) fun _ _ _ current => current.2.1.keepsEntries _ _
  obtain ⟨rfl, fits, safe, login⟩ := current
  exact Program.against_bind (against_install (login text rfl) _ ((vaults _).trans written.pool) fits
    safe) (fun _ _ _ keeps => keeps.returning _) fun _ _ _ keeps => keeps.failing _

/-- How an attempt of a call ends: when it lacks a lock, nothing has been written. -/
abbrev Attempts (runtime : TokenRuntime) (grants : MemberPool) (files : PoolFiles)
    (comparedName : String) {held : List String} {Result : Type} :
    Except String (Attempt grants.members held Result) → PoolFiles → PoolActions → Prop :=
  Round (fun after own => after = files ∧ AllFit runtime grants files own)
    (KeepsEntries runtime grants files comparedName)

/-- The inputs under which a swap loses and leaks nothing. -/
structure SwapConsidered (runtime : TokenRuntime) (grants : MemberPool) (files : PoolFiles)
    (target : Identity) : Prop where
  attributed : Attributed runtime grants files (grants.pool.active.getD target.name)
  nothing : NothingToLose runtime grants files (grants.pool.active.getD target.name)

theorem against_swapFrom (surroundings : Surroundings) {target : Identity} (held : List String)
    {targetText : FileText} {targetId : String} (login : IsLoginOf runtime targetId targetText)
    (considered : SwapConsidered runtime grants files target)
    (fits : AllFit runtime grants files own) :
    (swapFrom (piSpec runtime) surroundings grants target held targetText targetId).against alone
      (Attempts runtime grants files (grants.pool.active.getD target.name)) files own := by
  intro poolText same
  have fits := fits.read (.credentials grants.pool.configDir) poolText
  rw [same id] at fits ⊢
  show Program.against _ _ (if _ then _ else _) _ _
  split_ifs
  · exact fits.keepsEntries _ _
  · refine Program.against_bind (against_writeBackPool surroundings held considered.attributed fits)
      (fun attempt kept own ends => ?_) fun _ _ _ fits => fits.keepsEntries _ _
    cases attempt with
    | needLock owner isMember unheld => exact ends
    | done result =>
      refine Program.against_bind (against_replacePool surroundings target login result.2
        considered.attributed considered.nothing ends.2 ends.1) (fun _ _ _ keeps => keeps)
        fun _ _ _ keeps => keeps

theorem against_withHeldLocks {Result : Type} {post : Except String Result → PoolFiles →
      PoolActions → Prop} {poolDir : String} {held : List String} {program : PoolProgram Result}
    (body : program.against alone post kept own)
    (gaveUp : post (.error "could not take lock") kept own) :
    (withHeldLocks poolDir held program).against alone post kept own := by
  have layer : ∀ (dir : String) (inner : PoolProgram Result), inner.against alone post kept own →
      (withHeldLocks.layer dir inner).against alone post kept own :=
    fun dir inner ends =>
      Program.against_withLock _ (Program.against_withLock _ ends gaveUp) gaveUp
  refine layer poolDir _ ?_
  induction (lockOrder held).filter (· ≠ poolDir) with
  | nil => exact body
  | cons dir dirs inductionHypothesis => exact layer dir _ inductionHypothesis

theorem against_swapHeld (surroundings : Surroundings) {target : Identity} (held : List String)
    (considered : SwapConsidered runtime grants files target)
    (fits : AllFit runtime grants files own) :
    (swapHeld (piSpec runtime) surroundings grants target held).against alone
      (Attempts runtime grants files (grants.pool.active.getD target.name)) files own := by
  refine against_withHeldLocks ?_ (fits.keepsEntries _ _)
  intro targetText _
  dsimp only [Program.andThen]
  cases usable : usableLogin (piSpec runtime) target targetText with
  | error message => exact (fits.read _ _).keepsEntries _ _
  | ok login =>
    exact against_swapFrom surroundings held (usableLogin_ok usable).2 considered (fits.read _ _)

theorem against_swapCredentials (surroundings : Surroundings) {target : Identity}
    (considered : SwapConsidered runtime grants files target)
    (fits : AllFit runtime grants files own) :
    (swapCredentials (piSpec runtime) surroundings grants target).against alone
      (KeepsEntries runtime grants files (grants.pool.active.getD target.name)) files own := by
  refine against_untilHeld (fun after own => after = files ∧ AllFit runtime grants files own)
    (fun held kept own stage => ?_) _ files own ⟨rfl, fits⟩
  obtain ⟨rfl, fits⟩ := stage
  exact against_swapHeld surroundings held considered fits

end Swaps

/-! ### Healing -/

section Heals

variable {runtime : TokenRuntime} {grants : MemberPool} {files kept : PoolFiles}
  {own : PoolActions} {active : Identity} {comparedName : String} {vault : HealthyVault}

/-- What the kind of the pool's file says of it. -/
def Classified (runtime : TokenRuntime) (grants : MemberPool) (files : PoolFiles)
    (vault : HealthyVault) (kind : GrantKind) : Prop :=
  let IsGrantOf (accountId : String) (poolGrant : Object) : Prop :=
    grantIn files grants.pool.configDir = some poolGrant ∧
      (piSpec runtime).usable (some poolGrant) = true ∧
      (piSpec runtime).complete (some poolGrant) = true ∧
      ((piSpec runtime).identity (some poolGrant)).id = some accountId
  match kind with
  | .foreign accountId => accountId ≠ vault.accountId ∧ ∃ poolGrant, IsGrantOf accountId poolGrant
  | .same => ∃ poolGrant, IsGrantOf vault.accountId poolGrant
  | .behind => ∃ poolGrant, IsGrantOf vault.accountId poolGrant ∧ ∀ own entry,
      kimiEntry (some vault.grant) = some own → kimiEntry (some poolGrant) = some entry →
      HoldsEntry (some vault.grant) kimiKey entry ∨ isNewer entry own = false
  | _ => True

theorem kindOfOwn_behind {poolGrant : Object} {others : List Object}
    (ended : kindOfOwn (piSpec runtime) vault poolGrant others = .ok .behind) {own entry : Object}
    (isOwn : kimiEntry (some vault.grant) = some own)
    (isEntry : kimiEntry (some poolGrant) = some entry) :
    HoldsEntry (some vault.grant) kimiKey entry ∨ isNewer entry own = false := by
  unfold kindOfOwn movesInto at ended
  change (((newerInto runtime (some vault.grant) poolGrant .same others >>= _) >>= _) :
    Except String GrantKind) = _ at ended
  cases merges : newerInto runtime (some vault.grant) poolGrant .same others with
  | error message => rw [merges] at ended; cases ended
  | ok merge =>
    rw [merges] at ended
    change (if (merge.bind fun merge => merge.next).isSome then _ else _) = _ at ended
    cases next : merge.bind fun merge => merge.next with
    | some moved => rw [next] at ended; cases ended
    | none => exact kimi_of_unmoved merges next isOwn isEntry

theorem kindOfOwn_cases {poolGrant : Object} {others : List Object} {kind : GrantKind}
    (ended : kindOfOwn (piSpec runtime) vault poolGrant others = .ok kind) :
    kind = .same ∨ kind = .behind ∨ kind = .ok := by
  unfold kindOfOwn at ended
  obtain ⟨newer, -, ended⟩ := (bind_eq_ok _ _ _).mp ended
  split_ifs at ended
  · exact Or.inl (Except.ok.inj ended).symm
  · obtain ⟨older, -, ended⟩ := (bind_eq_ok _ _ _).mp ended
    have kinds := Except.ok.inj ended
    split_ifs at kinds
    · exact Or.inr (Or.inl kinds.symm)
    · exact Or.inr (Or.inr kinds.symm)

/-- The pool's file is looked at and told apart. -/
theorem against_classify (surroundings : Surroundings) (fits : AllFit runtime grants files own) :
    (classify (piSpec runtime) surroundings grants active vault).against alone
      (Looks runtime grants files files fun state =>
        state.1 = files (.credentials grants.pool.configDir) ∧
          Classified runtime grants files vault state.2) files own := by
  intro text same
  have fits := fits.read (.credentials grants.pool.configDir) text
  rw [same id] at fits ⊢
  dsimp only [Program.andThen]
  rw [← grantIn]
  cases inPool : grantIn files grants.pool.configDir with
  | none => exact fits.looks ⟨rfl, trivial⟩
  | some poolGrant =>
    dsimp only
    by_cases whole : (piSpec runtime).usable (some poolGrant) = true ∧
        (piSpec runtime).complete (some poolGrant) = true
    · rw [if_neg (not_not.mpr whole)]
      by_cases hybrid : ((piSpec runtime).identity (some poolGrant)).hybrid = true
      · rw [if_pos hybrid]
        exact fits.looks ⟨rfl, trivial⟩
      · rw [if_neg hybrid]
        cases account : ((piSpec runtime).identity (some poolGrant)).id with
        | none => exact fits.looks ⟨rfl, trivial⟩
        | some accountId =>
          dsimp only
          by_cases other : accountId ≠ vault.accountId
          · rw [if_pos other]
            exact fits.looks ⟨rfl, other, poolGrant, inPool, whole.1, whole.2, account⟩
          rw [if_neg other]
          have ofVault : ((piSpec runtime).identity (some poolGrant)).id = some vault.accountId :=
            account.trans (congrArg some (not_not.mp other))
          by_cases identical : (piSpec runtime).fingerprint poolGrant =
              (piSpec runtime).fingerprint vault.grant
          · rw [if_pos identical]
            exact fits.looks ⟨rfl, trivial⟩
          rw [if_neg identical]
          refine Program.against_bind (against_otherGrants _ _ _ _ fits)
            (fun others kept own looks => ?_) fun message _ _ looks => ?_
          · obtain ⟨rfl, fits, -⟩ := looks
            cases ended : kindOfOwn (piSpec runtime) vault poolGrant others with
            | error message => exact fits.looksFailed message
            | ok kind =>
              refine fits.looks ⟨rfl, ?_⟩
              rcases kindOfOwn_cases ended with rfl | rfl | rfl
              · exact ⟨poolGrant, inPool, whole.1, whole.2, ofVault⟩
              · exact ⟨poolGrant, ⟨inPool, whole.1, whole.2, ofVault⟩,
                  fun _ _ => kindOfOwn_behind ended⟩
              · trivial
          · obtain ⟨rfl, fits, -⟩ := looks
            exact fits.looksFailed message
    · rw [if_pos whole]
      exact fits.looks ⟨rfl, trivial⟩

theorem against_classifySettled (surroundings : Surroundings) (again : GrantKind → Bool)
    (fits : AllFit runtime grants files own) :
    (classifySettled (piSpec runtime) surroundings grants active vault again).against alone
      (Looks runtime grants files files fun state =>
        state.1 = files (.credentials grants.pool.configDir) ∧
          Classified runtime grants files vault state.2) files own := by
  refine Program.against_bind (against_classify surroundings fits)
    (fun state kept own looks => ?_) fun message _ _ looks => ?_
  · obtain ⟨rfl, fits, facts⟩ := looks
    split_ifs
    · exact against_classify surroundings fits
    · exact fits.looks (facts state rfl)
  · obtain ⟨rfl, fits, -⟩ := looks
    exact fits.looksFailed message

theorem against_backUpHealed (surroundings : Surroundings) (comparedName : String)
    (fits : AllFit runtime grants files own) :
    (backUpHealed (piSpec runtime) surroundings grants.pool.configDir
      (files (.credentials grants.pool.configDir))).against alone
      (Secured runtime grants files comparedName kept) kept own := by
  cases inPool : files (.credentials grants.pool.configDir) with
  | none =>
    refine ⟨fits, fun _ _ => ⟨fun _ => rfl, fun key entry isEntry => ?_⟩⟩
    rw [grantIn, inPool] at isEntry
    cases isEntry
  | some text =>
    refine ⟨fun before _ => ⟨fits.backUp _ _ _ _ _, fun _ _ => ⟨fun configDir => ?_,
      allSafe_of_backUp inPool _ _ _ _ _ _⟩⟩, fits, fun _ same => by cases same⟩
    exact Function.update_of_ne PoolFile.noConfusion _ _

/-- What is known of a pool's file that is not damaged, before the vault goes over it. -/
structure Restorable (runtime : TokenRuntime) (grants : MemberPool) (files : PoolFiles)
    (comparedName : String) (kept : PoolFiles) (own : PoolActions) : Prop where
  account : accountOf (piSpec runtime) (files (.credentials grants.pool.configDir)) ≠ none
  kimi : ∀ entry, kimiEntry (grantIn files grants.pool.configDir) = some entry →
    Safe runtime grants files comparedName kept own kimiKey entry
  facing : ∀ key entry, key ≠ kimiKey →
    oauthEntry (grantIn files grants.pool.configDir) key = some entry →
    OauthAt (vaultOf grants kept comparedName) key

/-- What a restore would not drop is safe. -/
theorem allSafe_of_dropsContent {kind : GrantKind}
    (dropsNothing : dropsContent (piSpec runtime) vault (files (.credentials grants.pool.configDir)) kind =
      .ok false)
    (inVault : vaultOf grants kept comparedName = some vault.grant)
    (restorable : kind ≠ .damaged → Restorable runtime grants files comparedName kept own) :
    AllSafe runtime grants files comparedName kept own := by
  intro key entry isEntry
  unfold dropsContent at dropsNothing
  by_cases damaged : kind = .damaged
  · rw [if_pos damaged] at dropsNothing
    cases inPool : files (.credentials grants.pool.configDir) with
    | none => rw [grantIn, inPool] at isEntry; cases isEntry
    | some text =>
      rw [inPool] at dropsNothing
      rw [grantIn, inPool] at isEntry
      cases text with
      | json value => cases dropsNothing
      | other text => cases isEntry
  · rw [if_neg damaged] at dropsNothing
    have restorable := restorable damaged
    rw [← grantIn] at dropsNothing
    by_cases kimi : key = kimiKey
    · subst kimi
      exact restorable.kimi entry isEntry
    · have facing := restorable.facing key entry kimi isEntry
      cases inPool : grantIn files grants.pool.configDir with
      | none => rw [inPool] at isEntry; cases isEntry
      | some poolGrant =>
        rw [inPool] at isEntry dropsNothing
        exact safe_of_compared kimi isEntry restorable.account (inVault ▸ dropsNothing) facing

/-- The vault goes over the pool's file. -/
theorem against_restore (surroundings : Surroundings) {kind : GrantKind} {backedUp : Bool}
    (notes : List String) (fits : AllFit runtime grants files own)
    (pool : kept (.credentials grants.pool.configDir) = files (.credentials grants.pool.configDir))
    (inVault : vaultOf grants kept comparedName = some vault.grant)
    (safe : backedUp = true → AllSafe runtime grants files comparedName kept own)
    (restorable : backedUp = false → kind ≠ .damaged →
      Restorable runtime grants files comparedName kept own) :
    (restore (piSpec runtime) surroundings grants active vault
      (files (.credentials grants.pool.configDir)) kind backedUp notes).against alone
      (KeepsEntries runtime grants files comparedName) kept own := by
  cases ended : dropsContent (piSpec runtime) vault (files (.credentials grants.pool.configDir)) kind with
  | error message =>
    unfold restore
    rw [ended]
    exact fits.keepsEntries _ _
  | ok drops =>
    unfold restore
    rw [ended]
    have keep : (restore.keep (piSpec runtime) surroundings grants
        (files (.credentials grants.pool.configDir)) backedUp drops).against alone
        (Secured runtime grants files comparedName kept) kept own := by
      unfold restore.keep
      by_cases copied : ¬ backedUp = true ∧ drops = true
      · rw [if_pos copied]
        exact Program.against_bind (against_backUpHealed surroundings _ fits)
          (fun _ _ _ secured => ⟨secured.1, fun _ _ => secured.2 _ rfl⟩)
          fun _ _ _ secured => ⟨secured.1, fun _ same => by cases same⟩
      · rw [if_neg copied]
        refine ⟨fits, fun _ _ => ⟨fun _ => rfl, ?_⟩⟩
        cases backedUp with
        | true => exact safe rfl
        | false =>
          have dropsNothing : drops = false := by simpa using copied
          exact allSafe_of_dropsContent (dropsNothing ▸ ended) inVault (restorable rfl)
    show Program.against _ _ (restore.keep (piSpec runtime) surroundings grants
      (files (.credentials grants.pool.configDir)) backedUp drops >>= _) _ _
    refine Program.against_bind keep (fun _ after own secured => ?_)
      fun _ _ _ secured => secured.1.keepsEntries _ _
    obtain ⟨fits, secured⟩ := secured
    obtain ⟨vaults, safe⟩ := secured _ rfl
    intro restored _
    have fits := fits.read (.credentials active.configDir) restored
    refine ⟨fun before answer => ?_, fits.keepsEntries _ _⟩
    exact keepsEntries_replace _ fits (safe.cons _) ((answer id).trans ((vaults _).trans pool)) _

theorem healthyVault_ok {text : Option FileText}
    (healthy : healthyVault (piSpec runtime) grants active text = .ok vault) :
    parseObject text = some vault.grant ∧
      accountOf (piSpec runtime) text = some vault.accountId := by
  unfold healthyVault at healthy
  cases usable : usableLogin (piSpec runtime) active text with
  | error message => rw [usable] at healthy; cases healthy
  | ok login =>
    cases parsed : parseObject text with
    | none => rw [usable, parsed] at healthy; cases healthy
    | some grant =>
      rw [usable, parsed] at healthy
      dsimp only at healthy
      obtain ⟨same, account⟩ := usableLogin_ok usable
      split_ifs at healthy
      cases healthy
      exact ⟨rfl, same ▸ account⟩

/-- The member is the active one, and its vault the one that was read. -/
structure HealsFrom (runtime : TokenRuntime) (grants : MemberPool) (files : PoolFiles)
    (active : Identity) (vault : HealthyVault) : Prop where
  isActive : activeMember grants.members grants.pool.active = some active
  inVault : grantIn files active.configDir = some vault.grant
  account : accountOf (piSpec runtime) (files (.credentials active.configDir)) = some vault.accountId
  attributed : (piSpec runtime).complete (grantIn files grants.pool.configDir) = true →
    Attributed runtime grants files active.name

theorem vaultOf_active (isActive : activeMember grants.members grants.pool.active = some active)
    (files : PoolFiles) : vaultOf grants files active.name = grantIn files active.configDir := by
  have named : (grants.members.find? fun member => member.name = active.name) = some active := by
    rw [activeName_of_activeMember isActive] at isActive
    unfold activeMember at isActive
    dsimp only at isActive
    split_ifs at isActive
    exact isActive
  rw [vaultOf, named]
  rfl

/-- A file that is kept in a backup is restored over. -/
theorem against_backUpRestore (surroundings : Surroundings) {held : List String} {kind : GrantKind}
    (heals : HealsFrom runtime grants files active vault) (notes : String → List String)
    (fits : AllFit runtime grants files own) :
    (backUpHealed (piSpec runtime) surroundings grants.pool.configDir
        (files (.credentials grants.pool.configDir)) >>= fun backup =>
      restore (piSpec runtime) surroundings grants active vault
        (files (.credentials grants.pool.configDir)) kind true (notes backup) >>= fun notes =>
      (pure (.done notes) : PoolProgram (Attempt grants.members held (List String)))).against alone
      (Attempts runtime grants files active.name) files own := by
  refine Program.against_bind (against_backUpHealed surroundings active.name fits)
    (fun _ after own secured => ?_) fun _ _ _ secured => secured.1.keepsEntries _ _
  obtain ⟨fits, secured⟩ := secured
  obtain ⟨vaults, safe⟩ := secured _ rfl
  refine Program.against_bind (against_restore surroundings _ fits (vaults _) ?_ (fun _ => safe)
    (nomatch ·)) (fun _ _ _ keeps => keeps.returning _) fun _ _ _ keeps => keeps.failing _
  rw [vaultOf_active heals.isActive, grantIn, vaults]
  exact heals.inVault

variable {poolText : Option FileText} {poolGrant : Object} {accountId : String}

/-- Another account's file goes to its owner, or into a backup. -/
theorem against_healForeign (surroundings : Surroundings) (held : List String)
    (heals : HealsFrom runtime grants files active vault)
    (inPool : grantIn files grants.pool.configDir = some poolGrant)
    (usable : (piSpec runtime).usable (some poolGrant) = true)
    (complete : (piSpec runtime).complete (some poolGrant) = true)
    (account : ((piSpec runtime).identity (some poolGrant)).id = some accountId)
    (foreign : accountId ≠ vault.accountId) (fits : AllFit runtime grants files own) :
    (healForeign (piSpec runtime) surroundings grants active held vault
      (files (.credentials grants.pool.configDir)) poolGrant accountId).against alone
      (Attempts runtime grants files active.name) files own := by
  have attributed := heals.attributed (inPool ▸ complete)
  have ofPool : accountOf (piSpec runtime) (files (.credentials grants.pool.configDir)) =
      some accountId := by
    change ((piSpec runtime).identity (grantIn files grants.pool.configDir)).id = _
    rw [inPool]
    exact account
  unfold healForeign
  rw [← activeName_of_activeMember heals.isActive]
  refine Program.against_bind (against_ownerByAccount (inPool ▸ usable) ofPool fits)
    (fun owner kept own looks => ?_) fun _ _ _ looks => looks.2.1.keepsEntries _ _
  obtain ⟨rfl, fits, isOwner⟩ := looks
  obtain ⟨isOwner, ofOwner⟩ := isOwner owner rfl
  cases owner with
  | none =>
    exact against_backUpRestore surroundings heals _ fits
  | some owner =>
    dsimp only
    by_cases unheld : owner.val.configDir ∉ held
    · rw [dif_pos unheld]
      exact ⟨rfl, fits⟩
    rw [dif_neg unheld]
    have ofOwner := ofOwner owner rfl
    have owned : OwnedBy runtime grants kept active.name .capture owner.val :=
      ⟨owner.property, attributed _ isOwner.symm, ⟨accountId, ofOwner, ofPool⟩, (nomatch ·)⟩
    refine Program.against_bind (against_writeBackToOwner surroundings owned inPool fits)
      (fun outcome after own wroteBack => ?_) fun _ _ _ wroteBack => wroteBack.fits.keepsEntries _ _
    have apart : active.configDir ≠ owner.val.configDir := by
      intro same
      rw [← same, heals.account] at ofOwner
      exact foreign (Option.some.inj ofOwner).symm
    refine Program.against_bind (against_restore surroundings _ wroteBack.fits
      (wroteBack.others _ (grants.separate _ owner.property).symm) ?_ (nomatch ·) fun _ _ => ?_)
      (fun _ _ _ keeps => keeps.returning _) fun _ _ _ keeps => keeps.failing _
    · rw [vaultOf_active heals.isActive, grantIn, wroteBack.others _ apart]
      exact heals.inVault
    · refine ⟨?_, fun entry isEntry => ?_, fun key entry other isEntry => ?_⟩
      · rw [ofPool]
        exact Option.some_ne_none accountId
      · exact safe_of_kimiKept isOwner.symm (wroteBack.kimi outcome rfl) isEntry
      · exact wroteBack.oauthOf _ key ((attributed _ isOwner.symm).facing key entry other isEntry)

/-- A file of the active member's account is the active member's. -/
theorem ownerIn_active (heals : HealsFrom runtime grants files active vault)
    (usable : (piSpec runtime).usable (grantIn files grants.pool.configDir) = true)
    (ofPool : accountOf (piSpec runtime) (files (.credentials grants.pool.configDir)) =
      some vault.accountId) : ownerIn runtime grants files = some active := by
  rw [ownerIn, if_pos usable, ofPool]
  exact find?_activeFirst heals.isActive (fun member => accountOf (piSpec runtime)
    (files (.credentials member.configDir)) = some vault.accountId) (decide_eq_true heals.account)

/-- The active member's own file gives its newer entries to the vault, and stays. -/
theorem against_repairSame (surroundings : Surroundings) {held : List String}
    (heals : HealsFrom runtime grants files active vault)
    (inPool : grantIn files grants.pool.configDir = some poolGrant)
    (attributed : Attributed runtime grants files active.name)
    (ofPool : accountOf (piSpec runtime) (files (.credentials grants.pool.configDir)) =
      some vault.accountId) (isOwner : ownerIn runtime grants files = some active)
    (notes : WriteBackOutcome → List String) (fits : AllFit runtime grants files own) :
    (GrantFile.writeBackToOwner (piSpec runtime) surroundings active poolGrant .same
      grants.members >>= fun outcome => (pure (.done (notes outcome)) :
        PoolProgram (Attempt grants.members held (List String)))).against alone
      (Attempts runtime grants files active.name) files own := by
  have owned : OwnedBy runtime grants files active.name .same active :=
    ⟨mem_of_activeMember heals.isActive, attributed _ isOwner, ⟨_, heals.account, ofPool⟩,
      fun _ => (activeName_of_activeMember heals.isActive).symm⟩
  exact Program.against_bind (against_writeBackToOwner surroundings owned inPool fits)
    (fun _ _ _ wroteBack => wroteBack.fits.keepsEntries _ _)
    fun _ _ _ wroteBack => wroteBack.fits.keepsEntries _ _

theorem against_repair (surroundings : Surroundings) (held : List String) {kind : GrantKind}
    (heals : HealsFrom runtime grants files active vault)
    (classified : Classified runtime grants files vault kind)
    (fits : AllFit runtime grants files own) :
    (repair (piSpec runtime) surroundings grants active held vault
      (files (.credentials grants.pool.configDir)) kind).against alone
      (Attempts runtime grants files active.name) files own := by
  have inVault := (vaultOf_active heals.isActive files).trans heals.inVault
  cases kind with
  | ok => exact fits.keepsEntries _ _
  | same =>
    obtain ⟨poolGrant, inPool, usable, complete, account⟩ := classified
    rw [← inPool] at usable complete account
    unfold repair
    have parsed : parseObject (files (.credentials grants.pool.configDir)) = some poolGrant := inPool
    rw [parsed]
    exact against_repairSame surroundings heals inPool (heals.attributed complete) account
      (ownerIn_active heals usable account) _ fits
  | foreign accountId =>
    obtain ⟨foreign, poolGrant, inPool, usable, complete, account⟩ := classified
    unfold repair
    have parsed : parseObject (files (.credentials grants.pool.configDir)) = some poolGrant := inPool
    rw [parsed]
    exact against_healForeign surroundings held heals inPool usable complete account foreign fits
  | hybrid => exact against_backUpRestore surroundings heals _ fits
  | behind =>
    obtain ⟨poolGrant, ⟨inPool, usable, complete, account⟩, behind⟩ := classified
    rw [← inPool] at usable complete account
    have attributed := heals.attributed complete
    have isOwner := ownerIn_active heals usable account
    refine Program.against_bind (against_restore surroundings _ fits rfl inVault (nomatch ·)
      fun _ _ => ⟨?_, fun entry isEntry => ?_, (attributed _ isOwner).facing⟩)
      (fun _ _ _ keeps => keeps.returning _) fun _ _ _ keeps => keeps.failing _
    · exact accountOf_of_ownerIn isOwner
    · obtain ⟨theirs, isTheirs, -⟩ := exists_kimiEntry_of_id heals.account
      change kimiEntry (grantIn files active.configDir) = _ at isTheirs
      refine safe_of_kimiKept isOwner (fun entry isEntry => ?_) isEntry
      rw [heals.inVault] at isTheirs ⊢
      exact (behind theirs entry isTheirs (inPool ▸ isEntry)).imp_right fun old => ⟨_, isTheirs, old⟩
  | damaged =>
    exact Program.against_bind (against_restore surroundings _ fits rfl inVault (nomatch ·)
      fun _ whole => absurd rfl whole) (fun _ _ _ keeps => keeps.returning _)
      fun _ _ _ keeps => keeps.failing _

/-- The inputs under which a heal loses and leaks nothing. -/
def HealConsidered (runtime : TokenRuntime) (grants : MemberPool) (files : PoolFiles) : Prop :=
  (piSpec runtime).complete (grantIn files grants.pool.configDir) = true →
    Attributed runtime grants files (grants.pool.active.getD "")

theorem against_healHeld (surroundings : Surroundings) (held : List String)
    (isActive : activeMember grants.members grants.pool.active = some active)
    (considered : HealConsidered runtime grants files) (fits : AllFit runtime grants files own) :
    (healHeld (piSpec runtime) surroundings grants active held).against alone
      (Attempts runtime grants files active.name) files own := by
  refine against_withHeldLocks ?_ (fits.keepsEntries _ _)
  intro vaultText same
  have fits := fits.read (.credentials active.configDir) vaultText
  dsimp only [Program.andThen]
  cases healthy : healthyVault (piSpec runtime) grants active vaultText with
  | error notes => exact fits.keepsEntries _ _
  | ok vault =>
    rw [same id] at healthy
    have heals : HealsFrom runtime grants files active vault := by
      refine ⟨isActive, (healthyVault_ok healthy).1, (healthyVault_ok healthy).2, fun complete => ?_⟩
      have attributed := considered complete
      rw [activeName_of_activeMember isActive] at attributed
      exact attributed
    refine Program.against_bind (against_classifySettled surroundings _ fits)
      (fun state kept own looks => ?_) fun _ _ _ looks => looks.2.1.keepsEntries _ _
    obtain ⟨rfl, fits, facts⟩ := looks
    obtain ⟨isText, classified⟩ := facts state rfl
    rw [isText]
    exact against_repair surroundings held heals classified fits

theorem against_heal (surroundings : Surroundings)
    (considered : HealConsidered runtime grants files) (fits : AllFit runtime grants files own) :
    (GrantFile.heal (piSpec runtime) surroundings grants).against alone
      (KeepsEntries runtime grants files (grants.pool.active.getD "")) files own := by
  unfold GrantFile.heal
  cases isActive : activeMember grants.members grants.pool.active with
  | none => exact fits.keepsEntries _ _
  | some active =>
    intro vaultText _
    have fits := fits.read (.credentials active.configDir) vaultText
    dsimp only [Program.andThen]
    cases healthyVault (piSpec runtime) grants active vaultText with
    | error notes => exact fits.keepsEntries _ _
    | ok vault =>
      refine Program.against_bind (against_classifySettled surroundings _ fits)
        (fun state kept own looks => ?_) fun _ _ _ looks => looks.2.1.keepsEntries _ _
      obtain ⟨rfl, fits, -⟩ := looks
      split_ifs
      · exact fits.keepsEntries _ _
      · rw [activeName_of_activeMember isActive]
        refine against_untilHeld (fun after own => after = kept ∧ AllFit runtime grants kept own)
          (fun held after own stage => ?_) _ kept own ⟨rfl, fits⟩
        obtain ⟨rfl, fits⟩ := stage
        exact against_healHeld surroundings held isActive considered fits

end Heals

end AiSwitcher.Pi
