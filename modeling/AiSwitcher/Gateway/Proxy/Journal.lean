/-
This file says what the world may answer to a request, and keeps a journal of it: the rows that
were pushed, the bodies that were sent upstream, and the members that were tried between two
waits. Nothing is assumed about the clock, the store, the credentials, the upstreams or the
other requests; a pool has the given members, some of which may be missing at a time, and a member
is its own canonical name.

The parts of the proxy that only read are specified here.
-/

import AiSwitcher.Gateway.Proxy.Handler

namespace AiSwitcher.Gateway.Proxy

open JavaScript Interrupted Program

/-! ### The journal -/

inductive Moment where
  | tried (name : String)
  | waited
  deriving DecidableEq

/-- What a request has done. The bodies and the moments are kept newest first. -/
structure Journal where
  recorded : Bool
  rows : List UsageRow
  sends : List Body
  trace : List Moment
  deriving DecidableEq

namespace Journal

def new : Journal := ⟨false, [], [], []⟩

/-- Only the first row is pushed. -/
def record (journal : Journal) (row : UsageRow) : Journal :=
  if journal.recorded then journal
  else { journal with recorded := true, rows := journal.rows ++ [row] }

/-- How often a body was sent that cannot be sent twice. -/
def streamed (journal : Journal) : Nat := (journal.sends.filter Body.isStream).length

end Journal

/-- What the world may answer. -/
def answers (members : List String) : Behaviour GatewayAction Journal
  | _, .record row, before, _, after => after = before.record row
  | _, .getCredential _ name, before, _, after =>
      after = { before with trace := .tried name :: before.trace }
  | _, .sleep _, before, _, after => after = { before with trace := .waited :: before.trace }
  | _, .fetch _ body, before, _, after => after = { before with sends := body :: before.sends }
  | _, .poolMembers _, before, answer, after =>
      after = before ∧ ∀ names, answer = .ok names → names ⊆ members
  | _, .canonical _ name, before, answer, after => after = before ∧ (name ∈ members → answer = name)
  | _, _, before, _, after => after = before

/-! ### Reading -/

section Reading

variable {Native : Type} {runtime : ProxyRuntime Native} {app : App} {members : List String}
  {journal : Journal}

/-- The program leaves the journal alone. -/
abbrev Calm (members : List String) (journal : Journal) {Result : Type} (program : Handling Result) :
    Prop :=
  Reads (answers members) program journal fun _ => True

theorem calm_done {Result : Type} (result : Result) :
    Calm members journal (.done result) := reads_done trivial

theorem calm_bind {First Result : Type} {program : Handling First} {next : First → Handling Result}
    (first : Calm members journal program) (second : ∀ result, Calm members journal (next result)) :
    Calm members journal (program >>= next) :=
  reads_bind first fun result _ => second result

theorem calm_ite {Result : Type} {condition : Prop} [Decidable condition]
    {first second : Handling Result} (isFirst : Calm members journal first)
    (isSecond : Calm members journal second) :
    Calm members journal (if condition then first else second) := by
  split
  · exact isFirst
  · exact isSecond

theorem reads_all {Value Result : Type} {action : Value → Handling Result}
    {holds : Value → Result → Prop}
    (each : ∀ value, Reads (answers members) (action value) journal (holds value))
    (values : List Value) :
    Reads (answers members) (all action values) journal (List.Forall₂ holds values) := by
  induction values with
  | nil => exact reads_done .nil
  | cons value rest inductionHypothesis =>
    exact reads_bind (each value) fun _ first =>
      reads_bind inductionHypothesis fun _ others => reads_done (.cons first others)

theorem calm_all {Value Result : Type} {action : Value → Handling Result}
    (each : ∀ value, Calm members journal (action value)) (values : List Value) :
    Calm members journal (all action values) :=
  reads_mono (reads_all each values) fun _ _ => trivial

/-- An action of which nothing is assumed. -/
theorem calm_perform {Answer : Type} {action : GatewayAction Answer}
    (quiet : ∀ answer after, answers members Answer action journal answer after → after = journal) :
    Calm members journal (perform action) :=
  reads_perform fun answer after answered => ⟨quiet answer after answered, trivial⟩

theorem calm_attempt {Result : Type} {action : GatewayAction (Except Thrown Result)}
    (quiet : ∀ answer after, answers members _ action journal answer after → after = journal) :
    Calm members journal (Program.attempt action) :=
  reads_attempt fun answer after answered => ⟨quiet answer after answered, fun _ _ => trivial⟩

theorem calm_canonical (provider : GatewayProvider) (name : String) :
    Calm members journal (.perform (.canonical provider name)) :=
  calm_perform fun _ _ answered => answered.1

theorem calm_aborted : Calm members journal aborted :=
  calm_bind (calm_perform fun _ _ same => same) fun _ =>
    calm_bind (calm_perform fun _ _ same => same) fun _ => calm_done _

/-! ### The pick -/

theorem calm_allowedMembers : Calm members journal (allowedMembers app) := by
  unfold allowedMembers
  split
  · exact calm_done _
  · refine calm_bind (calm_attempt fun _ _ answered => answered.1) fun names => ?_
    split
    · exact calm_done _
    · exact calm_bind (calm_all (fun _ => calm_canonical _ _) _) fun _ => calm_done _

theorem allowedMembers_reads (isPool : app.settings.target.isPool = true) :
    Reads (answers members) (allowedMembers app) journal (· ⊆ members) := by
  unfold allowedMembers
  split
  next isPin =>
    rw [isPin] at isPool
    cases isPool
  · have lists : Reads (answers members) (.attempt (.poolMembers app.settings.provider)) journal
        (· ⊆ members) :=
      reads_attempt fun _ _ answered => answered
    refine reads_bind lists ?_
    intro names within
    split
    · exact reads_done within
    · exact reads_bind (calm_all (fun _ => calm_canonical _ _) _) fun _ _ =>
        reads_done fun _ member => within (List.mem_of_mem_filter member)

theorem calm_usageFor (provider : GatewayProvider) (name : String) :
    Calm members journal (.perform (.usageFor provider name)) :=
  calm_perform fun _ _ same => same

theorem calm_memberUsages : Calm members journal (memberUsages app) := by
  refine reads_andThen calm_allowedMembers fun outcome => ?_
  cases outcome with
  | ok names => exact calm_all (calm_usageFor _) names
  | error error => exact calm_done _

theorem chooseBest_mem {rows : List MemberUse} {exclude : Option String} {belowPercent : Option ℚ}
    {requireKnown : Bool} {name : String}
    (chosen : chooseBest rows exclude belowPercent requireKnown = some name) :
    name ∈ rows.map MemberUse.name := by
  obtain ⟨row, isFirst, rfl⟩ := Option.map_eq_some_iff.mp chosen
  have ranked := (List.mem_insertionSort _).mp (List.mem_of_mem_head? isFirst)
  exact List.mem_map_of_mem
    (List.mem_of_mem_filter (List.mem_of_mem_filter (List.mem_of_mem_filter ranked)))

theorem pickOf_mem {rows : List MemberUse} {name : String} (picked : pickOf app rows = .identity name) :
    name ∈ rows.map MemberUse.name := by
  unfold pickOf at picked
  split at picked
  next known =>
    cases picked
    exact chooseBest_mem known
  · split at picked
    next unknown =>
      cases picked
      exact List.mem_map_of_mem (List.mem_of_find?_eq_some unknown)
    · cases picked

theorem memberUse_reads (name : String) :
    Reads (answers members) (memberUse app name) journal fun row => name = row.name :=
  reads_bind (calm_usageFor _ _) fun _ _ => reads_done rfl

/-- A pool picks one of its members that is not excluded. -/
def PicksFrom (app : App) (members exclude : List String) (picked : Picked) : Prop :=
  app.settings.target.isPool = true → ∀ name, picked = .identity name → name ∈ members ∧ name ∉ exclude

theorem pickIdentity_reads (exclude : List String) :
    Reads (answers members) (pickIdentity app exclude) journal (PicksFrom app members exclude) := by
  unfold pickIdentity
  split
  next isPin =>
    refine reads_bind (calm_usageFor _ _) fun _ _ => reads_done fun isPool => ?_
    rw [isPin] at isPool
    cases isPool
  next isTarget =>
    have isPool : app.settings.target.isPool = true := isTarget ▸ rfl
    refine reads_bind (allowedMembers_reads isPool) fun names within => ?_
    split
    · exact reads_done fun _ _ picked => nomatch picked
    · refine reads_bind (reads_all memberUse_reads _) fun rows read =>
        reads_done fun _ name picked => ?_
      have sameNames : names.filter (· ∉ exclude) = rows.map MemberUse.name :=
        List.forall₂_eq_eq_eq ▸ List.forall₂_map_right_iff.mpr read
      have isName := pickOf_mem picked
      rw [← sameNames] at isName
      obtain ⟨isMember, free⟩ := List.mem_filter.mp isName
      exact ⟨within isMember, of_decide_eq_true free⟩

theorem calm_pickIdentity (exclude : List String) :
    Calm members journal (pickIdentity app exclude) :=
  reads_mono (pickIdentity_reads exclude) fun _ _ => trivial

/-! ### Holds -/

theorem calm_forget (key : MemberKey) : Calm members journal (forget key) :=
  calm_bind (calm_perform fun _ _ same => same) fun _ => calm_perform fun _ _ same => same

theorem calm_stillHeld (key : MemberKey) (limit : ℚ) :
    Calm members journal (stillHeld app key limit) := by
  refine calm_bind (calm_perform fun _ _ same => same) fun now => ?_
  split
  · exact calm_bind (calm_forget key) fun _ => calm_done _
  split
  · exact calm_done _
  refine calm_bind (calm_perform fun _ _ same => same) fun hold => ?_
  split
  · refine calm_bind (calm_perform fun _ _ same => same) fun signature => ?_
    split
    · exact calm_bind (calm_forget key) fun _ => calm_done _
    · exact calm_done _
  · exact calm_done _

theorem calm_heldOf (entries : List (MemberKey × ℚ)) :
    Calm members journal (heldOf app entries) := by
  induction entries with
  | nil => exact calm_done _
  | cons entry rest inductionHypothesis =>
    exact calm_bind (calm_stillHeld _ _) fun _ => calm_bind inductionHypothesis fun _ => calm_done _

theorem calm_exhaustedNames : Calm members journal (exhaustedNames app) :=
  calm_bind (calm_perform fun _ _ same => same) calm_heldOf

theorem calm_signature (provider : GatewayProvider) (name : String) :
    Calm members journal (.perform (.signature provider name)) :=
  calm_perform fun _ _ same => same

theorem calm_setHold (key : MemberKey) (hold : Hold) :
    Calm members journal (.perform (.setHold key hold)) :=
  calm_perform fun _ _ same => same

theorem calm_holdCredentialFailure (name : String) (error : Thrown) :
    Calm members journal (holdCredentialFailure app name error) := by
  refine calm_bind (calm_perform fun _ _ same => same) fun now => ?_
  refine calm_bind (calm_perform fun _ _ same => same) fun _ => ?_
  exact calm_ite (calm_bind (calm_signature _ _) fun _ => calm_setHold _ _)
    (calm_bind (calm_done none) fun _ => calm_setHold _ _)

theorem calm_holdQuota (name : String) (res : Response) :
    Calm members journal (holdQuota runtime app name res) := by
  refine calm_bind (calm_perform fun _ _ same => same) fun now => ?_
  split
  · exact calm_bind (calm_perform fun _ _ same => same) fun _ => calm_perform fun _ _ same => same
  split
  · exact calm_bind (calm_perform fun _ _ same => same) fun _ => calm_perform fun _ _ same => same
  · exact calm_done _

theorem calm_holdsOf (names : List String) : Calm members journal (holdsOf app names) := by
  induction names with
  | nil => exact calm_done _
  | cons name rest inductionHypothesis =>
    exact calm_bind (calm_perform fun _ _ same => same) fun _ =>
      calm_bind inductionHypothesis fun _ => calm_done _

theorem calm_peek (res : Response) : Calm members journal (peek res) := by
  unfold peek
  split
  · exact calm_attempt fun _ _ same => same
  · exact calm_done _

theorem calm_isQuota (res : Response) : Calm members journal (isQuota runtime app res) := by
  unfold isQuota
  split
  · exact calm_done _
  split
  · split
    · exact calm_done _
    · refine calm_bind (calm_peek res) fun peeked => ?_
      dsimp only
      split
      · exact calm_done _
      · exact calm_done _
  split
  · exact calm_done _
  · exact calm_bind (calm_peek res) fun _ => calm_done _

theorem calm_hold (key : MemberKey) : Calm members journal (.perform (.hold key)) :=
  calm_perform fun _ _ same => same

theorem calm_now : Calm members journal (.perform .now) := calm_perform fun _ _ same => same

theorem calm_exhaustedUntil (key : MemberKey) :
    Calm members journal (.perform (.exhaustedUntil key)) :=
  calm_perform fun _ _ same => same

theorem calm_holds : Calm members journal (.perform .holds) := calm_perform fun _ _ same => same

theorem calm_heldMember : Calm members journal (heldMember app) := by
  refine calm_bind calm_exhaustedNames fun names => ?_
  refine calm_bind calm_holds fun holds => ?_
  refine calm_bind (calm_pickIdentity _) fun free => ?_
  refine calm_bind ?_ fun first => ?_
  · cases free with
    | reject reason => exact calm_done _
    | identity name => exact calm_bind (calm_hold _) fun _ => calm_done _
  split
  · refine calm_bind calm_holds fun holds => ?_
    refine calm_bind (calm_pickIdentity _) fun alternative => ?_
    refine calm_bind ?_ fun second => calm_done _
    cases alternative with
    | reject reason => exact calm_done _
    | identity name => exact calm_bind (calm_hold _) fun _ => calm_done _
  · exact calm_done _

/-! ### The body and the limits -/

theorem calm_receiveBody (request : Request) : Calm members journal (receiveBody request) := by
  unfold receiveBody
  split
  · exact calm_bind (calm_attempt fun _ _ same => same) fun _ => calm_attempt fun _ _ same => same
  · exact calm_attempt fun _ _ same => same

theorem calm_usedToday : Calm members journal (usedToday app) := by
  unfold usedToday
  split
  · exact calm_done _
  · refine calm_bind calm_now fun now => reads_andThen (calm_attempt fun _ _ same => same) ?_
    rintro (error | used) <;> exact calm_done _

theorem firstPick_reads :
    Reads (answers members) (firstPick app) journal (PicksFrom app members []) := by
  have picks (held : List String) :
      Reads (answers members) (pickIdentity app held) journal (PicksFrom app members []) :=
    reads_mono (pickIdentity_reads held) fun _ picks isPool name same =>
      ⟨(picks isPool name same).1, List.not_mem_nil⟩
  unfold firstPick
  split
  · exact reads_bind calm_exhaustedNames fun held _ => picks held
  · exact picks []

end Reading

end AiSwitcher.Gateway.Proxy
