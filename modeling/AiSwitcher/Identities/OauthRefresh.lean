/-
This file embeds the refresh of a Claude member's grant, `refreshIdentityOAuthGrant`
of `src/identities/oauth-refresh.ts`. A refresh picks the freshest copy of the grant
among the member's own store and the pools that hold it, exchanges its refresh token
at the token endpoint, and writes the rotated grant through to all of them, with the
`.oauth_refresh.lock` of every folder it writes into held from the reading on.

For an interleaved swap one fact about it matters: it writes into a folder's
credentials only while it holds that folder's lock.
-/

import AiSwitcher.Identities.OauthReconcile

namespace AiSwitcher

open JavaScript Interleaving

/-! ### What a refresh is given -/

/-- The options of a refresh, and what it takes from outside the credential stores: the folders of
the pools whose active member this is, at the first and at the second look into the registry, the
copy in the same-named Pi identity, whether a grant is due, and the token endpoint. -/
structure RefreshRun where
  force : Bool
  revokedFingerprint : Option String
  expectedAccessToken : Option String
  poolsHolding : List String
  poolsHoldingLater : List String
  piGrant : Option OAuthGrant
  shouldAttempt : OAuthGrant → Bool
  tokenEndpoint : OAuthGrant → Except String OAuthGrant

inductive RefreshOutcome where
  | refreshed
  | skippedFresh
  | skippedRevoked
  | noGrant
  | failed
  deriving DecidableEq

/-! ### Locks -/

def withLocks {Result : Type} (dirs : List String) (program : ClaudeProgram Result) :
    ClaudeProgram Result :=
  dirs.foldr withOauthRefreshLock program

def withOauthRefreshLocks {Result : Type} (dirs : List String) (program : ClaudeProgram Result) :
    ClaudeProgram Result :=
  withLocks (lockOrder dirs) program

/-! ### The stores of one grant -/

/-- The folders that do not name another account than the member's own. -/
def keepSameAccount (own : String) : List String → ClaudeProgram (List String)
  | [] => pure []
  | dir :: dirs => do
    let text ← Program.readFile (.claudeJson dir)
    let rest ← keepSameAccount own dirs
    match accountUuid (parseObject text) with
    | none => return dir :: rest
    | some theirs => return if theirs = own then dir :: rest else rest

def sameAccountDirs (identity : Identity) (dirs : List String) : ClaudeProgram (List String) :=
  if dirs = [] then pure []
  else do
    let text ← Program.readFile (.claudeJson identity.configDir)
    match accountUuid (parseObject text) with
    | none => return dirs
    | some own => keepSameAccount own dirs

def grantRecency (grant : OAuthGrant) : Number :=
  (grant.mintedAt.or grant.expiresAt).getD (.finite (-1))

/-- The freshest of several copies, the first of equally fresh ones. -/
def freshest (copies : List (Option OAuthGrant)) : Option OAuthGrant :=
  copies.foldl (fun best copy =>
    match copy, best with
    | none, _ => best
    | some grant, none => some grant
    | some grant, some kept =>
      if Number.lt (grantRecency kept) (grantRecency grant) then some grant else some kept) none

def readCopies : List String → ClaudeProgram (List (Option OAuthGrant))
  | [] => pure []
  | dir :: dirs => do
    let copy ← readProviderGrantCopy dir
    let rest ← readCopies dirs
    return copy :: rest

def sameCopy (runtime : TokenRuntime) (best : OAuthGrant) (copy : Option OAuthGrant) : Bool :=
  match copy with
  | some grant => grantFingerprint runtime grant = grantFingerprint runtime best ∧
      grant.accessToken = best.accessToken
  | none => false

/-- Write a grant into the stores that do not hold it. -/
def writeDiffering (runtime : TokenRuntime) (best : OAuthGrant) :
    List (String × Option OAuthGrant) → ClaudeProgram Unit
  | [] => pure ()
  | (dir, copy) :: rest =>
    if sameCopy runtime best copy then writeDiffering runtime best rest
    else do
      let _ ← writeProviderGrantCopy dir best
      writeDiffering runtime best rest

/-- `convergeClaudePoolStores` under the locks of all folders. -/
def convergeLocked (runtime : TokenRuntime) (identity : Identity) (poolDirs : List String) :
    ClaudeProgram Unit :=
  if poolDirs = [] then pure ()
  else do
    let dirs := identity.configDir :: poolDirs
    let copies ← readCopies dirs
    match freshest copies with
    | none => return ()
    | some best => writeDiffering runtime best (dirs.zip copies)

/-- `convergeClaudePoolStores` without locks: it takes them when the copies differ. -/
def convergeClaudePoolStores (runtime : TokenRuntime) (identity : Identity)
    (poolDirs : List String) : ClaudeProgram Unit :=
  if poolDirs = [] then pure ()
  else do
    let copies ← readCopies (identity.configDir :: poolDirs)
    match freshest copies with
    | none => return ()
    | some best =>
      if copies.all (sameCopy runtime best) then return ()
      else
        withOauthRefreshLocks poolDirs (withOauthRefreshLock identity.configDir do
          let same ← sameAccountDirs identity poolDirs
          convergeLocked runtime identity same)

/-- The copies of a member that some pool holds. -/
def readPooledCopies (identity : Identity) (poolDirs : List String) :
    ClaudeProgram (List (Option OAuthGrant)) :=
  if poolDirs = [] then pure [] else readCopies (identity.configDir :: poolDirs)

/-- Where the freshest refreshable copy lives: among the pools when there are any, else the fresher
of the member's own store and the Pi copy. -/
def freshestGrant (identity : Identity) (poolDirs : List String) (piGrant : Option OAuthGrant) :
    ClaudeProgram (Option OAuthGrant) := do
  let copies ← readPooledCopies identity poolDirs
  match freshest copies with
  | some best => return some best
  | none =>
    let native ← readProviderGrantCopy identity.configDir
    return freshest [native, piGrant]

/-! ### The refresh -/

/-- `writeGrantThroughStores`: the member's own store, then every pool's. -/
def writeGrantThroughStores (grant : OAuthGrant) : List String → ClaudeProgram Bool
  | [] => pure false
  | dir :: dirs => do
    let written ← writeProviderGrantCopy dir grant
    let rest ← writeGrantThroughStores grant dirs
    return written || rest

/-- `refreshGrantUnlocked`: the caller holds the locks. -/
def refreshGrantUnlocked (runtime : TokenRuntime) (identity : Identity) (run : RefreshRun)
    (lockedPoolDirs : List String) : ClaudeProgram RefreshOutcome := do
  let poolDirs ← sameAccountDirs identity lockedPoolDirs
  let () ← convergeLocked runtime identity poolDirs
  let found ← freshestGrant identity poolDirs run.piGrant
  match found with
  | none => return .noGrant
  | some grant =>
    if grant.refreshToken = none then return .noGrant
    else if run.revokedFingerprint = some (grantFingerprint runtime grant) then
      return .skippedRevoked
    else if run.expectedAccessToken.any (· ≠ grant.accessToken) then return .skippedFresh
    else if ¬ run.force ∧ ¬ run.shouldAttempt grant then return .skippedFresh
    else
      match run.tokenEndpoint grant with
      | .error message => .fail message
      | .ok rotated => do
        let wrote ← writeGrantThroughStores rotated (identity.configDir :: poolDirs)
        return if wrote then .refreshed else .failed

/-- The look at the grant before any lock is taken. -/
def peekGrant (identity : Identity) (run : RefreshRun) (poolDirs : List String) :
    ClaudeProgram (Option OAuthGrant) :=
  if run.force then pure none else freshestGrant identity poolDirs run.piGrant

/-- A refresh of a member, from outside any lock. -/
def refreshIdentityOAuthGrant (runtime : TokenRuntime) (identity : Identity) (run : RefreshRun) :
    ClaudeProgram RefreshOutcome := do
  let convergeDirs ← sameAccountDirs identity run.poolsHolding
  -- An error while converging is swallowed.
  (convergeClaudePoolStores runtime identity convergeDirs).andThen fun _ => do
    let poolDirs ← sameAccountDirs identity run.poolsHoldingLater
    let peek ← peekGrant identity run poolDirs
    if ¬ run.force ∧ (peek.bind fun grant => grant.refreshToken) = none then return .noGrant
    else if ¬ run.force ∧ ¬ peek.any run.shouldAttempt then return .skippedFresh
    else
      withOauthRefreshLocks poolDirs (withOauthRefreshLock identity.configDir
        (refreshGrantUnlocked runtime identity run poolDirs))

/-! ### A refresh writes only what it has locked -/

/-- A folder's credentials are written under the folder's lock. -/
def underRefreshLock (held : ClaudeLock → Prop) : ClaudeFile → Prop
  | .credentials configDir => held (.oauthRefresh configDir)
  | _ => True

section Discipline

open Program

variable {held : ClaudeLock → Prop}

theorem tidy_readProviderGrantCopy (configDir : String) :
    (readProviderGrantCopy configDir).Tidy underRefreshLock held fun _ => True :=
  tidy_bind (tidy_readFile _) fun _ _ => tidy_done trivial

theorem tidy_readCopies (dirs : List String) :
    (readCopies dirs).Tidy underRefreshLock held fun _ => True := by
  induction dirs with
  | nil => exact tidy_done trivial
  | cons dir dirs inductionHypothesis =>
    refine tidy_bind (tidy_readProviderGrantCopy dir) fun copy _ => ?_
    exact tidy_bind inductionHypothesis fun rest _ => tidy_done trivial

theorem tidy_freshestGrant (identity : Identity) (poolDirs : List String)
    (piGrant : Option OAuthGrant) :
    (freshestGrant identity poolDirs piGrant).Tidy underRefreshLock held fun _ => True := by
  have copies : (readPooledCopies identity poolDirs).Tidy underRefreshLock held fun _ => True := by
    unfold readPooledCopies
    by_cases none : poolDirs = []
    · rw [if_pos none]
      exact tidy_done trivial
    · rw [if_neg none]
      exact tidy_readCopies _
  refine tidy_bind copies fun copies _ => ?_
  cases freshest copies with
  | some best => exact tidy_done trivial
  | none => exact tidy_bind (tidy_readProviderGrantCopy _) fun native _ => tidy_done trivial

theorem tidy_keepSameAccount (own : String) (dirs : List String) :
    (keepSameAccount own dirs).Tidy underRefreshLock held fun kept => kept ⊆ dirs := by
  induction dirs with
  | nil => exact tidy_done (List.Subset.refl _)
  | cons dir dirs inductionHypothesis =>
    refine tidy_bind (tidy_readFile _) fun text _ => ?_
    refine tidy_bind inductionHypothesis fun rest subset => ?_
    have kept : dir :: rest ⊆ dir :: dirs := List.cons_subset_cons dir subset
    cases accountUuid (parseObject text) with
    | none => exact tidy_done kept
    | some theirs =>
      by_cases same : theirs = own
      · exact tidy_done (by rw [if_pos same]; exact kept)
      · exact tidy_done (by rw [if_neg same]; exact List.subset_cons_of_subset dir subset)

theorem tidy_sameAccountDirs (identity : Identity) (dirs : List String) :
    (sameAccountDirs identity dirs).Tidy underRefreshLock held fun kept => kept ⊆ dirs := by
  unfold sameAccountDirs
  by_cases none : dirs = []
  · rw [if_pos none]
    exact tidy_done (List.nil_subset _)
  · rw [if_neg none]
    refine tidy_bind (tidy_readFile _) fun text _ => ?_
    cases accountUuid (parseObject text) with
    | none => exact tidy_done (List.Subset.refl _)
    | some own => exact tidy_keepSameAccount own dirs

/-- The locks of all these folders are held. -/
def AllLocked (held : ClaudeLock → Prop) (dirs : List String) : Prop :=
  ∀ dir ∈ dirs, held (.oauthRefresh dir)

theorem tidy_writeProviderGrantCopy {configDir : String} (grant : OAuthGrant)
    (locked : held (.oauthRefresh configDir)) :
    (writeProviderGrantCopy configDir grant).Tidy underRefreshLock held fun _ => True := by
  have ends : ∀ written : Bool, (Program.done written : ClaudeProgram Bool).Tidy underRefreshLock
      held fun _ => True := fun written => tidy_done trivial
  refine tidy_bind (tidy_readFile _) fun text _ => ?_
  cases text with
  | none => exact ⟨locked, ends⟩
  | some kept => exact ⟨trivial, fun _ => ⟨locked, ends⟩⟩

theorem tidy_writeDiffering (runtime : TokenRuntime) (best : OAuthGrant)
    {stores : List (String × Option OAuthGrant)}
    (locked : ∀ store ∈ stores, held (.oauthRefresh store.1)) :
    (writeDiffering runtime best stores).Tidy underRefreshLock held fun _ => True := by
  induction stores with
  | nil => exact tidy_done trivial
  | cons store stores inductionHypothesis =>
    rw [List.forall_mem_cons] at locked
    obtain ⟨dir, copy⟩ := store
    rw [writeDiffering]
    by_cases same : sameCopy runtime best copy = true
    · rw [if_pos same]
      exact inductionHypothesis locked.2
    · rw [if_neg same]
      exact tidy_bind (tidy_writeProviderGrantCopy best locked.1) fun _ _ =>
        inductionHypothesis locked.2

theorem tidy_writeGrantThroughStores (grant : OAuthGrant) {dirs : List String}
    (locked : AllLocked held dirs) :
    (writeGrantThroughStores grant dirs).Tidy underRefreshLock held fun _ => True := by
  induction dirs with
  | nil => exact tidy_done trivial
  | cons dir dirs inductionHypothesis =>
    rw [AllLocked, List.forall_mem_cons] at locked
    refine tidy_bind (tidy_writeProviderGrantCopy grant locked.1) fun written _ => ?_
    exact tidy_bind (inductionHypothesis locked.2) fun rest _ => tidy_done trivial

theorem tidy_convergeLocked (runtime : TokenRuntime) (identity : Identity) {poolDirs : List String}
    (locked : AllLocked held (identity.configDir :: poolDirs)) :
    (convergeLocked runtime identity poolDirs).Tidy underRefreshLock held fun _ => True := by
  unfold convergeLocked
  by_cases none : poolDirs = []
  · rw [if_pos none]
    exact tidy_done trivial
  · rw [if_neg none]
    refine tidy_bind (tidy_readCopies _) fun copies _ => ?_
    cases freshest copies with
    | none => exact tidy_done trivial
    | some best =>
      refine tidy_writeDiffering runtime best fun store member => ?_
      exact locked store.1 (List.of_mem_zip member).1

/-- A program under the locks of several folders has them all, besides those already held. -/
theorem disciplined_withLocks {Result : Type} {program : ClaudeProgram Result}
    {dirs : List String} : ∀ {held : ClaudeLock → Prop},
    (∀ more : ClaudeLock → Prop, (∀ lock, held lock → more lock) → AllLocked more dirs →
      program.Disciplined underRefreshLock more) →
    (withLocks dirs program).Disciplined underRefreshLock held := by
  induction dirs with
  | nil => exact fun body => body _ (fun _ holds => holds) fun _ member => nomatch member
  | cons dir dirs inductionHypothesis =>
    intro held body
    refine disciplined_withLock (inductionHypothesis fun more keeps locked => ?_)
    refine body more (fun lock holds => keeps lock (Or.inr holds)) ?_
    exact List.forall_mem_cons.mpr ⟨keeps _ (Or.inl rfl), locked⟩

/-- The locks that both the refresh and the convergence run under. -/
theorem disciplined_withOauthRefreshLocks {Result : Type} {program : ClaudeProgram Result}
    {identity : Identity} {poolDirs : List String}
    (body : ∀ more : ClaudeLock → Prop, AllLocked more (identity.configDir :: poolDirs) →
      program.Disciplined underRefreshLock more) :
    (withOauthRefreshLocks poolDirs
      (withOauthRefreshLock identity.configDir program)).Disciplined underRefreshLock held := by
  refine disciplined_withLocks fun more _ locked => disciplined_withLock (body _ ?_)
  refine List.forall_mem_cons.mpr ⟨Or.inl rfl, fun dir member => Or.inr ?_⟩
  exact locked dir (mem_lockOrder.mpr member)

theorem AllLocked.subset {dirs kept : List String} {first : String}
    (locked : AllLocked held (first :: dirs)) (subset : kept ⊆ dirs) :
    AllLocked held (first :: kept) :=
  fun dir member => locked dir (List.cons_subset_cons first subset member)

theorem disciplined_convergeClaudePoolStores (runtime : TokenRuntime) (identity : Identity)
    (poolDirs : List String) :
    (convergeClaudePoolStores runtime identity poolDirs).Disciplined underRefreshLock held := by
  unfold convergeClaudePoolStores
  by_cases none : poolDirs = []
  · rw [if_pos none]
    trivial
  · rw [if_neg none]
    refine disciplined_bind (tidy_readCopies _) fun copies _ => ?_
    cases freshest copies with
    | none => trivial
    | some best =>
      by_cases same : copies.all (sameCopy runtime best) = true
      · simp only [same, if_true]
        trivial
      · simp only [same]
        refine disciplined_withOauthRefreshLocks fun more locked => ?_
        refine disciplined_bind (tidy_sameAccountDirs _ _) fun kept subset => ?_
        exact (tidy_convergeLocked runtime identity (locked.subset subset)).disciplined

theorem disciplined_refreshGrantUnlocked (runtime : TokenRuntime) (identity : Identity)
    (run : RefreshRun) {poolDirs : List String}
    (locked : AllLocked held (identity.configDir :: poolDirs)) :
    (refreshGrantUnlocked runtime identity run poolDirs).Disciplined underRefreshLock held := by
  refine disciplined_bind (tidy_sameAccountDirs _ _) fun kept subset => ?_
  have keptLocked := locked.subset subset
  refine disciplined_bind (tidy_convergeLocked runtime identity keptLocked) fun _ _ => ?_
  refine disciplined_bind (tidy_freshestGrant _ _ _) fun found _ => ?_
  cases found with
  | none => trivial
  | some grant =>
    dsimp only
    split_ifs
    · trivial
    · trivial
    · trivial
    · trivial
    · cases run.tokenEndpoint grant with
      | error message => trivial
      | ok rotated =>
        refine disciplined_bind (tidy_writeGrantThroughStores rotated keptLocked) fun _ _ => ?_
        trivial

/-- At every point of a refresh, whatever locks it held before, it writes a folder's credentials
only under the folder's lock. -/
theorem disciplined_refreshIdentityOAuthGrant (runtime : TokenRuntime) (identity : Identity)
    (run : RefreshRun) :
    (refreshIdentityOAuthGrant runtime identity run).Disciplined underRefreshLock held := by
  refine disciplined_bind (tidy_sameAccountDirs _ _) fun convergeDirs _ => ?_
  refine disciplined_andThen (disciplined_convergeClaudePoolStores _ _ _) fun _ after => ?_
  refine disciplined_bind (tidy_sameAccountDirs _ _) fun poolDirs _ => ?_
  have peek : (peekGrant identity run poolDirs).Tidy underRefreshLock after fun _ => True := by
    unfold peekGrant
    by_cases forced : run.force = true
    · rw [if_pos forced]
      exact tidy_done trivial
    · rw [if_neg forced]
      exact tidy_freshestGrant _ _ _
  refine disciplined_bind peek fun peeked _ => ?_
  split_ifs
  · trivial
  · trivial
  · exact disciplined_withOauthRefreshLocks fun more locked =>
      disciplined_refreshGrantUnlocked runtime identity run locked

end Discipline

end AiSwitcher
