/-
This file has what the Codex and the grant-file pool adapters share: the credential
file of each folder and the backups next to it, the two tiers of locks, and the loop
that widens the set of held locks until it covers the owner of the pool's grant.
-/

import AiSwitcher.Identities.Pool.Adapter
import AiSwitcher.Library.SharedFile

namespace AiSwitcher.Pool

open JavaScript Interleaving

/-! ### Files and locks -/

inductive BackupKind where
  | swap
  | heal
  | merge
  deriving DecidableEq

def BackupKind.text : BackupKind → String
  | .swap => "swap"
  | .heal => "heal"
  | .merge => "merge"

/-- The credential file of a folder, and its `.pre-<kind>.<stamp>.bak` copies. -/
inductive PoolFile where
  | credentials (configDir : String)
  | backup (configDir : String) (kind : BackupKind) (stamp : String)
  deriving DecidableEq

inductive PoolLock where
  /-- `.ais-pool.lock` -/
  | pool (configDir : String)
  | oauthRefresh (configDir : String)
  /-- The tool's own credential lock. -/
  | tool (configDir : String)
  deriving DecidableEq

abbrev PoolFiles := PoolFile → Option FileText

/-- What a call did, the latest first; other programs are numbered. -/
abbrev PoolActions := List (Event PoolFile FileText (Option ℕ))

/-- Whether the event leaves a backup behind. -/
def leavesBackup : Event PoolFile FileText (Option ℕ) → Bool
  | .wrote _ (.backup ..) .. => true
  | _ => false

abbrev PoolProgram (Result : Type) := Program PoolFile FileText PoolLock Result

def withPoolLock {Result : Type} (configDir : String) (program : PoolProgram Result) :
    PoolProgram Result :=
  Program.withLock (.pool configDir) program

def withOauthRefreshLock {Result : Type} (configDir : String) (program : PoolProgram Result) :
    PoolProgram Result :=
  Program.withLock (.oauthRefresh configDir) program

def withOauthRefreshLocks {Result : Type} (dirs : List String) (program : PoolProgram Result) :
    PoolProgram Result :=
  (lockOrder dirs).foldr withOauthRefreshLock program

/-! ### Pools -/

/-- A pool with its members. Creating a pool refuses a folder that another identity uses. -/
structure MemberPool where
  pool : PoolIdentity
  members : List Identity
  separate : ∀ member ∈ members, member.configDir ≠ pool.configDir

/-- The members named as active, then the others. -/
def activeFirst (members : List Identity) (activeName : Option String) :
    List { member // member ∈ members } :=
  members.attach.filter (fun member => some member.val.name = activeName) ++
    members.attach.filter fun member => some member.val.name ≠ activeName

/-- The active member comes first among those that fit. -/
theorem find?_activeFirst {members : List Identity} {activeName : Option String} {active : Identity}
    (isActive : activeMember members activeName = some active) (fits : Identity → Bool)
    (fitting : fits active = true) :
    ((activeFirst members activeName).find? fun member => fits member.val).map (fun member =>
      member.val) = some active := by
  have first : (members.find? fun member => some member.name = activeName) = some active := by
    cases activeName with
    | none => cases isActive
    | some name =>
      unfold activeMember at isActive
      dsimp only at isActive
      split_ifs at isActive
      rw [← isActive]
      refine congrArg (fun test : Identity → Bool => members.find? test) (funext fun member => ?_)
      exact decide_eq_decide.mpr (Option.some_inj)
  have head : ((members.filter fun member => some member.name = activeName).find? fits) =
      some active := by
    rw [List.find?_filter]
    obtain ⟨named, before, after, split, others⟩ := List.find?_eq_some_iff_append.mp first
    refine List.find?_eq_some_iff_append.mpr ⟨by rw [named, fitting]; rfl, before, after, split, ?_⟩
    intro other isOther
    have passed := others other isOther
    rw [Bool.not_eq_true'] at passed
    simp [of_decide_eq_false passed]
  have valued : (activeFirst members activeName).map (fun member => member.val) =
      (members.filter fun member => some member.name = activeName) ++
        members.filter fun member => some member.name ≠ activeName := by
    rw [activeFirst, List.map_append]
    have kept : ∀ test : Identity → Bool, ((members.attach.filter fun member => test member.val).map
        fun member => member.val) = members.filter test := by
      intro test
      have same := @List.filter_map _ _ (fun member : { member // member ∈ members } => member.val)
        test members.attach
      rw [List.attach_map_subtype_val] at same
      exact same.symm
    exact congrArg₂ _ (kept fun member => some member.name = activeName)
      (kept fun member => some member.name ≠ activeName)
  have found := @List.find?_map _ _ fits (fun member : { member // member ∈ members } => member.val)
    (activeFirst members activeName)
  rw [valued, List.find?_append, head] at found
  exact found.symm

/-- The first member whose vault has the account. -/
def findOwner (accountOf : Option FileText → Option String) (accountId : String)
    {members : List Identity} :
    List { member // member ∈ members } → PoolProgram (Option { member // member ∈ members })
  | [] => pure none
  | member :: others => do
    let text ← Program.readFile (.credentials member.val.configDir)
    if accountOf text = some accountId then return some member
    else findOwner accountOf accountId others

/-- `ownerByAccount(members, accountId, activeName)` -/
def ownerByAccount (accountOf : Option FileText → Option String) (members : List Identity)
    (accountId : String) (activeName : Option String) :
    PoolProgram (Option { member // member ∈ members }) :=
  findOwner accountOf accountId (activeFirst members activeName)

/-- `writeBackup(file, kind, text)`, with the path of the copy. The older copies of the kind that
are then pruned are other files. -/
def writeBackup (configDir file : String) (kind : BackupKind) (stamp : String) (text : FileText) :
    PoolProgram String := do
  Program.writeFile (.backup configDir kind stamp) text
  return file ++ ".pre-" ++ kind.text ++ "." ++ stamp ++ ".bak"

/-! ### Widening the held locks -/

/-- How an attempt under the held locks ends: it lacks the lock of a member, or is through. -/
inductive Attempt (members : List Identity) (held : List String) (Result : Type) where
  | needLock (owner : Identity) (member : owner ∈ members) (unheld : owner.configDir ∉ held)
  | done (result : Result)

/-- A member's folder that is newly wanted leaves fewer members out. -/
theorem length_leftOut_lt {members : List Identity} {wanted : List String} {owner : Identity}
    (member : owner ∈ members) (missing : owner.configDir ∉ wanted) :
    (members.filter fun member => member.configDir ∉ wanted ++ [owner.configDir]).length <
      (members.filter fun member => member.configDir ∉ wanted).length := by
  have leftOut : (members.filter fun member => member.configDir ∉ wanted ++ [owner.configDir]) =
      (members.filter fun member => member.configDir ∉ wanted).filter
        fun member => member.configDir ≠ owner.configDir := by
    rw [List.filter_filter]
    refine List.filter_congr fun member _ => ?_
    simp [and_comm]
  rw [leftOut, List.length_filter_lt_length_iff_exists]
  exact ⟨owner, List.mem_filter.mpr ⟨member, by simpa using missing⟩, by simp⟩

/-- The `for (;;)` of the adapters: attempt, and where a member's lock is lacking go again with its
folder added. Every round adds the folder of one more member. -/
def untilHeld {Result : Type} (members : List Identity) (poolDir : String)
    (attempt : (held : List String) → PoolProgram (Attempt members held Result))
    (wanted : List String) : PoolProgram Result := do
  let ended ← attempt (lockOrder (poolDir :: wanted))
  match ended with
  | .needLock owner _ _ => untilHeld members poolDir attempt (wanted ++ [owner.configDir])
  | .done result => return result
termination_by (members.filter fun member => member.configDir ∉ wanted).length
decreasing_by
  rename_i member unheld
  refine length_leftOut_lt member fun already => ?_
  exact unheld (mem_lockOrder.mpr (List.mem_cons_of_mem _ already))

/-! ### Rules -/

section Rules

variable {Result Process : Type} {shared : PoolFile → Prop}
  {post : Except String Result → (PoolFile → Option FileText) →
    List (Event PoolFile FileText (Option Process)) → Prop}
  {kept : PoolFile → Option FileText} {own : List (Event PoolFile FileText (Option Process))}

theorem against_withOauthRefreshLocks {dirs : List String} {program : PoolProgram Result}
    (body : program.against shared post kept own)
    (gaveUp : post (.error "could not take lock") kept own) :
    (withOauthRefreshLocks dirs program).against shared post kept own := by
  unfold withOauthRefreshLocks
  induction lockOrder dirs with
  | nil => exact body
  | cons dir dirs inductionHypothesis =>
    exact Program.against_withLock _ inductionHypothesis gaveUp

/-- How a round of the loop ends: it keeps the invariant where it lacks a lock. -/
def Round (invariant : (PoolFile → Option FileText) →
      List (Event PoolFile FileText (Option Process)) → Prop)
    (post : Except String Result → (PoolFile → Option FileText) →
      List (Event PoolFile FileText (Option Process)) → Prop)
    {members : List Identity} {held : List String} :
    Except String (Attempt members held Result) → (PoolFile → Option FileText) →
      List (Event PoolFile FileText (Option Process)) → Prop
  | .ok (.needLock ..) => invariant
  | .ok (.done result) => post (.ok result)
  | .error message => post (.error message)

/-- The rule of the loop. -/
theorem against_untilHeld {members : List Identity} {poolDir : String}
    {attempt : (held : List String) → PoolProgram (Attempt members held Result)}
    (invariant : (PoolFile → Option FileText) →
      List (Event PoolFile FileText (Option Process)) → Prop)
    (round : ∀ held kept own, invariant kept own → (attempt held).against shared
      (Round invariant post) kept own)
    (wanted : List String) : ∀ kept own, invariant kept own →
      (untilHeld members poolDir attempt wanted).against shared post kept own := by
  induction wanted using untilHeld.induct members poolDir with
  | case1 wanted inductionHypothesis =>
    intro kept own holds
    rw [untilHeld]
    refine Program.against_bind (round _ kept own holds) (fun ended kept own ends => ?_)
      fun message kept own ends => ends
    cases ended with
    | needLock owner member unheld => exact inductionHypothesis owner member unheld kept own ends
    | done result => exact ends

/-- The search finds the first candidate whose vault has the account, and only looks at vaults. -/
theorem against_findOwner {members : List Identity} {accountOf : Option FileText → Option String}
    {accountId : String} {looked : List (Event PoolFile FileText (Option Process)) → Prop}
    (vaults : ∀ member ∈ members, ¬ shared (.credentials member.configDir))
    (look : ∀ member ∈ members, ∀ own found, looked own →
      looked (.read none (.credentials member.configDir) found :: own))
    (candidates : List { member // member ∈ members }) :
    ∀ own, looked own → (findOwner accountOf accountId candidates).against shared
      (fun outcome after own => after = kept ∧ looked own ∧
        outcome = .ok (candidates.find? fun member =>
          accountOf (kept (.credentials member.val.configDir)) = some accountId)) kept own := by
  induction candidates with
  | nil => exact fun own holds => ⟨rfl, holds, rfl⟩
  | cons member others inductionHypothesis =>
    intro own holds found answer
    have holds := look member.val member.property own found holds
    have same := answer (vaults member.val member.property)
    rw [same] at holds ⊢
    show Program.against _ _ (if _ then _ else _) _ _
    by_cases has : accountOf (kept (.credentials member.val.configDir)) = some accountId
    · rw [if_pos has]
      exact ⟨rfl, holds, by rw [List.find?_cons, decide_eq_true has]⟩
    · rw [if_neg has, List.find?_cons, decide_eq_false has]
      exact inductionHypothesis _ holds

end Rules

theorem credentials_ne {configDir other : String} (different : configDir ≠ other) :
    PoolFile.credentials configDir ≠ .credentials other :=
  fun same => different (PoolFile.credentials.inj same)

end AiSwitcher.Pool
