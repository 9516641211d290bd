/-
This file says what an application of a bundle does to the drive, when nobody else writes
there meanwhile: the conflicts, the choices and the plan are read and leave the drive alone,
the plan is then carried out item by item, and the state is written when all of it was.

A program may fail or be cut off anywhere, so each statement is about every world that the
program reaches.
-/

import AiSwitcher.Library.Control
import AiSwitcher.Live.Inbox

namespace AiSwitcher.Live

open JavaScript Interrupted Utf8 Program

variable {Text : Type}

/-! ### What the drive answers -/

namespace Drive

def put (drive : Drive Text) (path : String) (content : Text) : Drive Text :=
  { drive with files := Function.update drive.files path (some content) }

def append (drive : Drive Text) (path : String) (bytes : Bytes) : Drive Text :=
  { drive with logs := Function.update drive.logs path (some ((drive.logs path).getD [] ++ bytes)) }

def setState (drive : Drive Text) (state : InboxState) : Drive Text :=
  { drive with state := .valid state }

/-- Any access may fail. A credential file is replaced only if it has the expected digest, and
may be left because the lock was lost. `choices` are those that are made for a conflict. -/
def answers (runtime : LiveRuntime Text) (choices : String → Choice → Prop) : Behaviour (InboxAct Text) (Drive Text)
  | _, .readState, before, answer, after =>
      after = before ∧ ∀ state, answer = .ok state → readState before.state = .ok state
  | _, .readFile path, before, answer, after =>
      after = before ∧ ∀ content, answer = .ok content → content = before.files path
  | _, .readLog path, before, answer, after =>
      after = before ∧ ∀ content, answer = .ok content → content = before.logs path
  | _, .chooseConflict path, before, answer, after =>
      after = before ∧ ∀ choice, answer = .ok choice → choices path choice
  | _, .lockAuth _, before, _, after => after = before
  | _, .hasOpenOwner _, before, _, after => after = before
  | _, .appendLog path bytes, before, answer, after =>
      Writes before (before.append path bytes) () answer after
  | _, .renameAuth path expected content, before, answer, after =>
      Writes before (before.put path content) true answer after ∧
        (answer = .ok true → (before.files path).map runtime.digest = expected)
  | _, .writeFile path content, before, answer, after =>
      Writes before (before.put path content) () answer after
  | _, .writeState next, before, answer, after => Writes before (before.setState next) () answer after

end Drive

section Applying

variable (runtime : LiveRuntime Text) (tokens : TokenRuntime) {choices : String → Choice → Prop}
  {drive : Drive Text}

/-! ### Reading and planning -/

theorem reads_file (path : String) :
    Reads (Drive.answers runtime choices) (attempt (.readFile path) : Inbox Text (Option Text)) drive
      fun content => content = drive.files path :=
  reads_attempt fun _ _ answers => answers

theorem reads_log (path : String) :
    Reads (Drive.answers runtime choices) (attempt (.readLog path) : Inbox Text (Option Bytes)) drive
      fun content => content = drive.logs path :=
  reads_attempt fun _ _ answers => answers

/-- An entry of a bundle that is a conflict on a drive. -/
def ConflictAt (hashes : Members String) (drive : Drive Text) (entry : String × Payload Text) :
    Prop :=
  ∃ incoming current baseline, entry.2 = .config incoming ∧ drive.files entry.1 = some current ∧
    hashes.get entry.1 = some baseline ∧
    isConflict runtime entry.1 baseline current incoming = .ok true

/-- The paths of the conflicts. -/
def ConflictsOf (hashes : Members String) (drive : Drive Text)
    (entries : List (String × Payload Text)) (conflicts : List String) : Prop :=
  ∀ path, path ∈ conflicts ↔ ∃ entry ∈ entries, entry.1 = path ∧
    ConflictAt runtime hashes drive entry

theorem ConflictsOf.cons {hashes : Members String} {entries : List (String × Payload Text)}
    {conflicts : List String} (rest : ConflictsOf runtime hashes drive entries conflicts)
    {entry : String × Payload Text} (none : ¬ ConflictAt runtime hashes drive entry) :
    ConflictsOf runtime hashes drive (entry :: entries) conflicts := by
  intro path
  rw [List.exists_mem_cons_iff, ← rest path]
  exact ⟨.inr, fun member => member.resolve_left fun here => none here.2⟩

theorem conflictAt_of_checked {hashes : Members String} {path : String} {incoming : Text}
    (conflict : Bool) (isChecked : (match drive.files path, hashes.get path with
      | some current, some baseline => isConflict runtime path baseline current incoming
      | _, _ => .ok false) = .ok conflict) :
    conflict = true ↔ ConflictAt runtime hashes drive (path, .config incoming) := by
  constructor
  · rintro rfl
    split at isChecked
    next current baseline isCurrent isBaseline =>
      exact ⟨incoming, current, baseline, rfl, isCurrent, isBaseline, isChecked⟩
    next => cases isChecked
  · rintro ⟨incoming', current, baseline, same, isCurrent, isBaseline, conflicting⟩
    cases same
    rw [isCurrent, isBaseline] at isChecked
    exact Except.ok.inj (isChecked.symm.trans conflicting)

theorem reads_findConflicts (hashes : Members String) :
    ∀ entries : List (String × Payload Text),
      Reads (Drive.answers runtime choices) (findConflicts runtime hashes entries) drive
        (ConflictsOf runtime hashes drive entries)
  | [] => reads_done fun path => by simp
  | (path, .config incoming) :: entries => by
      refine reads_bind (reads_file runtime path) fun current isCurrent => ?_
      subst isCurrent
      refine reads_bind (reads_ofExcept (conflictAt_of_checked runtime)) fun conflict isConflict => ?_
      refine reads_bind (reads_findConflicts hashes entries) fun conflicts rest => ?_
      refine reads_done fun other => ?_
      rw [List.exists_mem_cons_iff, ← rest other, ← isConflict]
      cases conflict with
      | true => simp [eq_comm]
      | false => simp
  | (_, .auth _) :: entries => reads_mono (reads_findConflicts hashes entries) fun _ rest =>
      rest.cons runtime (by rintro ⟨_, _, _, ⟨⟩, -⟩)
  | (_, .ssh _) :: entries => reads_mono (reads_findConflicts hashes entries) fun _ rest =>
      rest.cons runtime (by rintro ⟨_, _, _, ⟨⟩, -⟩)
  | (_, .logs _) :: entries => reads_mono (reads_findConflicts hashes entries) fun _ rest =>
      rest.cons runtime (by rintro ⟨_, _, _, ⟨⟩, -⟩)

/-- The decisions are about the paths, and there are none where nobody can decide. -/
def DecisionsOn (choices : String → Choice → Prop) (canChoose : Bool) (paths : List String)
    (decisions : Members Choice) : Prop :=
  decisions.map Prod.fst = paths ∧ (∀ decision ∈ decisions, choices decision.1 decision.2) ∧
    (paths ≠ [] → canChoose = true)

theorem reads_chooseAll (canChoose : Bool) :
    ∀ paths : List String,
      Reads (Drive.answers runtime choices) (chooseAll canChoose paths) drive fun decided =>
        ∀ decisions, decided = some decisions → DecisionsOn choices canChoose paths decisions
  | [] => reads_done fun decisions isSome => by
      cases isSome
      exact ⟨rfl, List.forall_mem_nil _, fun nonempty => absurd rfl nonempty⟩
  | path :: paths => by
      unfold chooseAll
      split
      next can =>
        have chosen : Reads (Drive.answers runtime choices)
            (attempt (.chooseConflict path) : Inbox Text Choice) drive (choices path) :=
          reads_attempt fun _ _ answers => answers
        refine reads_bind chosen fun choice isChosen => ?_
        refine reads_bind (reads_chooseAll canChoose paths) fun decided rest => ?_
        refine reads_done fun decisions isSome => ?_
        obtain ⟨others, isOthers, rfl⟩ := Option.map_eq_some_iff.mp isSome
        obtain ⟨samePaths, allChosen, -⟩ := rest others isOthers
        exact ⟨congrArg (path :: ·) samePaths, List.forall_mem_cons.mpr ⟨isChosen, allChosen⟩,
          fun _ => can⟩
      next => exact reads_done fun _ isSome => nomatch isSome

def Planned.path : Planned Text → String
  | .noted path _ => path
  | .config path _ _ => path
  | .ssh path _ => path
  | .auth path _ => path
  | .logs path _ => path

/-- The plan for an entry of a bundle, on a drive that has the configuration file as it is. -/
def PlannedFor (hashes : Members String) (decisions : Members Choice) (drive : Drive Text)
    (entry : String × Payload Text) (item : Planned Text) : Prop :=
  match entry.2 with
  | .logs incoming => item = .logs entry.1 incoming
  | .auth incoming => item = .auth entry.1 incoming
  | .ssh incoming => item = .ssh entry.1 incoming
  | .config incoming =>
      planConfig runtime (hashes.get entry.1) (decisions.get entry.1) entry.1
        (drive.files entry.1) incoming = .ok item

theorem reads_planEntry (hashes : Members String) (decisions : Members Choice) (path : String)
    (payload : Payload Text) :
    Reads (Drive.answers runtime choices) (planEntry runtime hashes decisions path payload) drive
      (PlannedFor runtime hashes decisions drive (path, payload)) := by
  cases payload with
  | logs incoming => exact reads_bind (reads_log runtime path) fun _ _ => reads_done rfl
  | auth incoming => exact reads_bind (reads_file runtime path) fun _ _ => reads_done rfl
  | ssh incoming => exact reads_bind (reads_file runtime path) fun _ _ => reads_done rfl
  | config incoming =>
    refine reads_bind (reads_file runtime path) fun current isCurrent => ?_
    refine reads_ofExcept fun item planned => ?_
    rw [isCurrent] at planned
    exact planned

theorem reads_planEntries (hashes : Members String) (decisions : Members Choice) :
    ∀ entries : List (String × Payload Text),
      Reads (Drive.answers runtime choices) (planEntries runtime hashes decisions entries) drive
        (List.Forall₂ (PlannedFor runtime hashes decisions drive) entries)
  | [] => reads_done .nil
  | (path, payload) :: entries => by
      refine reads_bind (reads_planEntry runtime hashes decisions path payload)
        fun item planned => ?_
      exact reads_bind (reads_planEntries hashes decisions entries) fun plan plans =>
        reads_done (.cons planned plans)

theorem planConfig_path {baseline : Option String} {decision : Option Choice} {path : String}
    {current : Option Text} {incoming : Text} {item : Planned Text}
    (planned : planConfig runtime baseline decision path current incoming = .ok item) :
    item.path = path := by
  unfold planConfig at planned
  obtain ⟨hash, -, planned⟩ := (JavaScript.bind_eq_ok _ _ _).mp planned
  split at planned
  · cases planned; rfl
  obtain ⟨currentHash, -, planned⟩ := (JavaScript.bind_eq_ok _ _ _).mp planned
  split at planned
  · cases planned; rfl
  split at planned
  · cases planned; rfl
  · obtain ⟨content, -, planned⟩ := (JavaScript.bind_eq_ok _ _ _).mp planned
    cases planned
    rfl

/-! ### Carrying out the plan -/

/-- The drive after an item of the plan. -/
def carryOut (drive : Drive Text) : Planned Text → Except String (Drive Text)
  | .noted _ _ => .ok drive
  | .logs path incoming =>
      let missing := missingLogLines (drive.logs path) incoming
      .ok (if missing.isEmpty then drive else drive.append path missing)
  | .auth path incoming =>
      (mergedAuth runtime tokens path (drive.files path) incoming).map (drive.put path)
  | .ssh path content => .ok (drive.put path content)
  | .config path content _ => .ok (drive.put path content)

/-- The drive after some items of the plan. -/
def carryAll (drive : Drive Text) : List (Planned Text) → Except String (Drive Text)
  | [] => .ok drive
  | item :: plan => carryOut runtime tokens drive item >>= fun after => carryAll after plan

/-- The hash an item of the plan records whatever it finds. -/
def Planned.hash : Planned Text → Option String
  | .noted _ hash => some hash
  | .config _ _ hash => some hash
  | _ => none

/-- The hashes after an item of the plan. -/
def Recorded (item : Planned Text) (before after : Members String) : Prop :=
  (∀ path, path ≠ item.path → after.get path = before.get path) ∧
    ∀ hash, item.hash = some hash → after.get item.path = some hash

def RecordedAll : List (Planned Text) → Members String → Members String → Prop
  | [], before, after => after = before
  | item :: plan, before, after =>
      ∃ between, Recorded item before between ∧ RecordedAll plan between after

theorem recorded_set (item : Planned Text) (hashes : Members String) (hash : String)
    (same : item.hash = none ∨ item.hash = some hash) :
    Recorded item hashes (hashes.set item.path hash) := by
  refine ⟨fun path apart => ?_, fun other isHash => ?_⟩
  · rw [Members.get_set, if_neg apart]
  · rw [Members.get_set, if_pos rfl, ← isHash]
    obtain none | isSame := same
    · rw [none] at isHash
      cases isHash
    · exact isSame.symm

theorem recorded_refl (item : Planned Text) (nothing : item.hash = none) (hashes : Members String) :
    Recorded item hashes hashes :=
  ⟨fun _ _ => rfl, fun _ isHash => absurd (nothing.symm.trans isHash) (nomatch ·)⟩

/-- A write in front of a result was done or not, and it was done if there is the result. -/
theorem reaches_write {Result : Type} (action : InboxAct Text (Except String Unit))
    {result : Result} (written : Drive Text) {after : Drive Text}
    {outcome : Option (Except String Result)}
    (writes : ∀ answer between, Drive.answers runtime choices _ action drive answer between →
      Writes drive written () answer between)
    (reaches : (attempt action >>= fun _ => (return result : Inbox Text Result)).Reaches
      (Drive.answers runtime choices) drive outcome after) :
    (after = drive ∨ after = written) ∧
      ∀ ended, outcome = some (.ok ended) → after = written ∧ ended = result := by
  obtain ⟨either, none⟩ | rest := reaches.of_write_bind written writes
  · exact ⟨either, fun ended ok => absurd ok (none ended)⟩
  obtain ⟨same, cut | ended⟩ := rest.of_done
  · exact ⟨.inr same, fun _ ok => by rw [cut] at ok; cases ok⟩
  · exact ⟨.inr same, fun other ok =>
      ⟨same, (Except.ok.inj (Option.some.inj (ended.symm.trans ok))).symm⟩⟩

/-- What an outcome says about a credential file: unchanged, or merged and written. -/
def AuthOutcome (path : String) (incoming : Text) (drive : Drive Text)
    (outcome : Option (Except String (Option Text))) (after : Drive Text) : Prop :=
  (after = drive ∨ carryOut runtime tokens drive (.auth path incoming) = .ok after) ∧
    (outcome = some (.ok none) → after = drive) ∧
    ∀ content, outcome = some (.ok (some content)) →
      mergedAuth runtime tokens path (drive.files path) incoming = .ok content ∧
        after = drive.put path content

theorem authOutcome_of_unchanged {path : String} {incoming : Text}
    {outcome : Option (Except String (Option Text))} {after : Drive Text} (same : after = drive)
    (none : ∀ content, outcome ≠ some (.ok (some content))) :
    AuthOutcome runtime tokens path incoming drive outcome after :=
  ⟨.inl same, fun _ => same, fun content ok => absurd ok (none content)⟩

/-- A rename at the end of an attempt. -/
theorem authOutcome_of_rename {path : String} {incoming content : Text} {attempts : Nat}
    {outcome : Option (Except String (Option Text))} {after : Drive Text}
    (merged : mergedAuth runtime tokens path (drive.files path) incoming = .ok content)
    (again : ∀ {outcome after}, (authAttempts runtime tokens path incoming attempts).Reaches
      (Drive.answers runtime choices) drive outcome after →
        AuthOutcome runtime tokens path incoming drive outcome after)
    (reaches : (attempt (.renameAuth path ((drive.files path).map runtime.digest) content) >>=
      fun renamed => if renamed then return some content
        else authAttempts runtime tokens path incoming attempts).Reaches (Drive.answers runtime choices)
          drive outcome after) :
    AuthOutcome runtime tokens path incoming drive outcome after := by
  have carried : carryOut runtime tokens drive (.auth path incoming) =
      .ok (drive.put path content) := by
    rw [carryOut, merged]
    rfl
  obtain ⟨cut, same⟩ | ⟨answer, between, ⟨wrote, -⟩, goesOn⟩ := reaches.of_attempt_bind
  · exact authOutcome_of_unchanged runtime tokens same fun _ ok => by rw [cut] at ok; cases ok
  obtain ⟨same, none⟩ | ⟨renamed, answered, rest⟩ := goesOn
  · refine ⟨?_, fun ok => absurd ok (none _), fun _ ok => absurd ok (none _)⟩
    rw [same]
    exact wrote.elim (fun done => .inr (done.1 ▸ carried)) fun notDone => .inl notDone.1
  cases renamed with
  | false =>
    obtain ⟨-, only⟩ | ⟨rfl, -⟩ := wrote
    · exact absurd (only false answered) Bool.false_ne_true
    · exact again rest
  | true =>
    obtain ⟨rfl, -⟩ | ⟨-, failed⟩ := wrote
    · obtain ⟨rfl, ended⟩ := rest.of_done
      refine ⟨.inr carried, fun ok => ?_, fun other ok => ?_⟩
      · obtain cut | ended := ended
        · rw [cut] at ok; cases ok
        · rw [ended] at ok; cases ok
      · obtain cut | ended := ended
        · rw [cut] at ok; cases ok
        · rw [ended] at ok
          cases ok
          exact ⟨merged, rfl⟩
    · exact absurd answered failed

/-- The attempts at a credential file leave it alone or write the merged credentials, and they
have written them if they say so. -/
theorem reaches_authAttempts (path : String) (incoming : Text) (attempts : Nat) :
    ∀ {outcome : Option (Except String (Option Text))} {after : Drive Text},
      (authAttempts runtime tokens path incoming attempts).Reaches (Drive.answers runtime choices) drive
        outcome after → AuthOutcome runtime tokens path incoming drive outcome after := by
  induction attempts with
  | zero =>
    intro outcome after reaches
    obtain ⟨same, ended⟩ := reaches.of_done
    refine authOutcome_of_unchanged runtime tokens same fun content ok => ?_
    rw [ok] at ended
    obtain cut | ended := ended
    · cases cut
    · cases ended
  | succ attempts inductionHypothesis =>
    intro outcome after reaches
    have cutOff : ∀ {outcome : Option (Except String (Option Text))}, outcome = none →
        ∀ content, outcome ≠ some (.ok (some content)) := fun cut content ok => by
      rw [cut] at ok
      cases ok
    obtain ⟨cut, same⟩ | ⟨owner, between, rfl, goesOn⟩ := reaches.of_attempt_bind
    · exact authOutcome_of_unchanged runtime tokens same (cutOff cut)
    obtain ⟨same, none⟩ | ⟨isOpen, -, rest⟩ := goesOn
    · exact authOutcome_of_unchanged runtime tokens same fun _ => none _
    split at rest
    · obtain ⟨same, cut | failed⟩ := rest.of_fail
      · exact authOutcome_of_unchanged runtime tokens same (cutOff cut)
      · exact authOutcome_of_unchanged runtime tokens same fun _ ok => by
          rw [failed] at ok; cases ok
    obtain ⟨cut, same⟩ | ⟨answer, between, ⟨rfl, current⟩, goesOn⟩ := rest.of_attempt_bind
    · exact authOutcome_of_unchanged runtime tokens same (cutOff cut)
    obtain ⟨same, none⟩ | ⟨existing, answered, rest⟩ := goesOn
    · exact authOutcome_of_unchanged runtime tokens same fun _ => none _
    obtain rfl := current existing answered
    obtain ⟨cut, reached⟩ | ⟨error, failed, reached⟩ | ⟨content, between, reached, rest⟩ :=
      Reaches.of_bind _ rest
    · exact authOutcome_of_unchanged runtime tokens reached.of_ofExcept.1 (cutOff cut)
    · exact authOutcome_of_unchanged runtime tokens reached.of_ofExcept.1 fun _ ok => by
        rw [failed] at ok; cases ok
    · obtain ⟨rfl, cut | merged⟩ := reached.of_ofExcept
      · cases cut
      · exact authOutcome_of_rename runtime tokens (Option.some.inj merged).symm
          inductionHypothesis rest

/-- What an outcome says about an item of the plan: it was carried out or not, and it was, with
its hash recorded, if the program goes on from it. -/
def ItemOutcome (progress : Progress) (item : Planned Text) (drive : Drive Text)
    (outcome : Option (Except String (Option Progress))) (after : Drive Text) : Prop :=
  (after = drive ∨ carryOut runtime tokens drive item = .ok after) ∧
    ∀ progress', outcome = some (.ok (some progress')) →
      carryOut runtime tokens drive item = .ok after ∧
        Recorded item progress.hashes progress'.hashes

theorem itemOutcome_of_unchanged {progress : Progress} {item : Planned Text}
    {outcome : Option (Except String (Option Progress))} {after : Drive Text}
    (same : after = drive) (none : ∀ progress', outcome ≠ some (.ok (some progress'))) :
    ItemOutcome runtime tokens progress item drive outcome after :=
  ⟨.inl same, fun progress' ok => absurd ok (none progress')⟩

/-- An item that is one write. -/
theorem itemOutcome_of_write {progress : Progress} (progress' : Progress) {item : Planned Text}
    {action : InboxAct Text (Except String Unit)} (written : Drive Text) {after : Drive Text}
    {outcome : Option (Except String (Option Progress))}
    (carried : carryOut runtime tokens drive item = .ok written)
    (recorded : Recorded item progress.hashes progress'.hashes)
    (reaches : (attempt action >>= fun _ =>
      (return some progress' : Inbox Text (Option Progress))).Reaches (Drive.answers runtime choices)
        drive outcome after)
    (writes : ∀ answer between, Drive.answers runtime choices _ action drive answer between →
      Writes drive written () answer between) :
    ItemOutcome runtime tokens progress item drive outcome after := by
  obtain ⟨either, ended⟩ := reaches_write runtime action written writes reaches
  have isWritten : after = written → carryOut runtime tokens drive item = .ok after := fun done =>
    done ▸ carried
  refine ⟨either.imp id isWritten, fun other ok => ?_⟩
  obtain ⟨done, isEnd⟩ := ended _ ok
  cases isEnd
  exact ⟨isWritten done, recorded⟩

theorem reaches_applyItem (progress : Progress) (item : Planned Text)
    {outcome : Option (Except String (Option Progress))} {after : Drive Text}
    (reaches : (applyItem runtime tokens progress item).Reaches (Drive.answers runtime choices) drive
      outcome after) :
    ItemOutcome runtime tokens progress item drive outcome after := by
  have cutOff : ∀ {outcome : Option (Except String (Option Progress))}, outcome = none →
      ∀ progress', outcome ≠ some (.ok (some progress')) := fun cut progress' ok => by
    rw [cut] at ok
    cases ok
  cases item with
  | noted path hash =>
    obtain ⟨same, ended⟩ := reaches.of_done
    refine ⟨.inl same, fun progress' ok => ⟨congrArg Except.ok same.symm, ?_⟩⟩
    obtain cut | ended := ended
    · exact absurd ok (cutOff cut progress')
    · rw [ended] at ok
      cases ok
      exact recorded_set (.noted path hash) progress.hashes hash (.inr rfl)
  | logs path incoming =>
    obtain ⟨cut, same⟩ | ⟨answer, between, ⟨rfl, current⟩, goesOn⟩ := reaches.of_attempt_bind
    · exact itemOutcome_of_unchanged runtime tokens same (cutOff cut)
    obtain ⟨same, none⟩ | ⟨log, answered, rest⟩ := goesOn
    · exact itemOutcome_of_unchanged runtime tokens same fun _ => none _
    obtain rfl := current log answered
    have carried : carryOut runtime tokens between (.logs path incoming) =
        .ok (if (missingLogLines (between.logs path) incoming).isEmpty then between
          else between.append path (missingLogLines (between.logs path) incoming)) := rfl
    have recorded : Recorded (.logs path incoming : Planned Text) progress.hashes progress.hashes :=
      recorded_refl _ rfl _
    dsimp only at rest
    split at rest
    next nothing =>
      rw [if_pos nothing] at carried
      obtain ⟨same, ended⟩ := rest.of_done
      refine ⟨.inl same, fun progress' ok => ⟨same ▸ carried, ?_⟩⟩
      obtain cut | ended := ended
      · exact absurd ok (cutOff cut progress')
      · rw [ended] at ok
        cases ok
        exact recorded
    next something =>
      rw [if_neg something] at carried
      exact itemOutcome_of_write runtime tokens ⟨progress.applied + 1, progress.hashes⟩ _ carried
        recorded rest fun _ _ writes => writes
  | auth path incoming =>
    obtain ⟨cut, same⟩ | ⟨answer, between, rfl, goesOn⟩ := reaches.of_attempt_bind
    · exact itemOutcome_of_unchanged runtime tokens same (cutOff cut)
    obtain ⟨same, none⟩ | ⟨_, -, rest⟩ := goesOn
    · exact itemOutcome_of_unchanged runtime tokens same fun _ => none _
    obtain ⟨cut, reached⟩ | ⟨error, failed, reached⟩ | ⟨written, between, reached, rest⟩ :=
      Reaches.of_bind _ rest
    · exact ⟨(reaches_authAttempts runtime tokens path incoming 3 reached).1,
        fun _ ok => absurd ok (cutOff cut _)⟩
    · exact ⟨(reaches_authAttempts runtime tokens path incoming 3 reached).1,
        fun _ ok => by rw [failed] at ok; cases ok⟩
    · obtain ⟨either, -, merged⟩ := reaches_authAttempts runtime tokens path incoming 3 reached
      obtain ⟨rfl, ended⟩ := rest.of_done
      refine ⟨either, fun progress' ok => ?_⟩
      obtain cut | ended := ended
      · exact absurd ok (cutOff cut progress')
      rw [ended] at ok
      cases written with
      | none => cases ok
      | some content =>
        cases ok
        obtain ⟨isMerged, same⟩ := merged content rfl
        refine ⟨?_, recorded_set (.auth path incoming) progress.hashes _ (.inl rfl)⟩
        rw [carryOut, isMerged, same]
        rfl
  | ssh path content =>
    exact itemOutcome_of_write runtime tokens _ (drive.put path content) rfl
      (recorded_set (.ssh path content) progress.hashes _ (.inl rfl)) reaches
      fun _ _ writes => writes
  | config path content hash =>
    exact itemOutcome_of_write runtime tokens _ (drive.put path content) rfl
      (recorded_set (.config path content hash) progress.hashes _ (.inr rfl)) reaches
      fun _ _ writes => writes

/-- The first items of a plan have been carried out, and all of them if it is complete. -/
theorem reaches_applyPlan :
    ∀ (plan : List (Planned Text)) (progress : Progress) {drive after : Drive Text}
      {outcome : Option (Except String (Progress × Bool))},
      (applyPlan runtime tokens progress plan).Reaches (Drive.answers runtime choices) drive outcome
        after →
      (∃ done rest, plan = done ++ rest ∧ carryAll runtime tokens drive done = .ok after) ∧
        ∀ progress', outcome = some (.ok (progress', true)) →
          carryAll runtime tokens drive plan = .ok after ∧
            RecordedAll plan progress.hashes progress'.hashes
  | [], progress, drive, after, outcome, reaches => by
      obtain ⟨rfl, ended⟩ := reaches.of_done
      refine ⟨⟨[], [], rfl, rfl⟩, fun progress' ok => ⟨rfl, ?_⟩⟩
      obtain cut | ended := ended
      · rw [cut] at ok; cases ok
      · rw [ended] at ok; cases ok; rfl
  | item :: plan, progress, drive, after, outcome, reaches => by
      have partly : ∀ {last : Drive Text},
          (last = drive ∨ carryOut runtime tokens drive item = .ok last) →
          ∃ done rest, item :: plan = done ++ rest ∧
            carryAll runtime tokens drive done = .ok last := by
        rintro last (rfl | carried)
        · exact ⟨[], item :: plan, rfl, rfl⟩
        · refine ⟨[item], plan, rfl, ?_⟩
          rw [carryAll, carried]
          rfl
      obtain ⟨cut, reached⟩ | ⟨error, failed, reached⟩ | ⟨next, between, reached, rest⟩ :=
        Reaches.of_bind _ reaches
      · exact ⟨partly (reaches_applyItem runtime tokens progress item reached).1,
          fun _ ok => by rw [cut] at ok; cases ok⟩
      · exact ⟨partly (reaches_applyItem runtime tokens progress item reached).1,
          fun _ ok => by rw [failed] at ok; cases ok⟩
      obtain ⟨either, carried⟩ := reaches_applyItem runtime tokens progress item reached
      cases next with
      | none =>
        obtain ⟨rfl, cut | ended⟩ := rest.of_done
        · exact ⟨partly either, fun _ ok => by rw [cut] at ok; cases ok⟩
        · exact ⟨partly either, fun _ ok => by rw [ended] at ok; cases ok⟩
      | some progress' =>
        obtain ⟨carried, recorded⟩ := carried progress' rfl
        obtain ⟨⟨done, left, split, carriedDone⟩, complete⟩ :=
          reaches_applyPlan plan progress' rest
        have goesOn : ∀ items, carryAll runtime tokens drive (item :: items) =
            carryAll runtime tokens between items := by
          intro items
          rw [carryAll, carried]
          rfl
        refine ⟨⟨item :: done, left, by rw [split]; rfl, (goesOn done).trans carriedDone⟩, ?_⟩
        intro last ok
        obtain ⟨carriedRest, recordedRest⟩ := complete last ok
        exact ⟨(goesOn plan).trans carriedRest, progress'.hashes, recorded, recordedRest⟩

/-! ### One path of the plan -/

/-- Two drives have the same at a path. -/
def Drive.SameAt (path : String) (first second : Drive Text) : Prop :=
  first.files path = second.files path ∧ first.logs path = second.logs path

/-- An item of the plan touches its own path only. -/
theorem carryOut_frame {path : String} {item : Planned Text} {after : Drive Text}
    (carried : carryOut runtime tokens drive item = .ok after) (apart : item.path ≠ path) :
    after.SameAt path drive := by
  have put : ∀ other content, other ≠ path → (drive.put other content).SameAt path drive :=
    fun other content different => ⟨Function.update_of_ne different.symm _ _, rfl⟩
  cases item with
  | noted => cases carried; exact ⟨rfl, rfl⟩
  | config other content => cases carried; exact put other content apart
  | ssh other content => cases carried; exact put other content apart
  | logs other incoming =>
    cases carried
    split
    · exact ⟨rfl, rfl⟩
    · exact ⟨rfl, Function.update_of_ne (Ne.symm apart) _ _⟩
  | auth other incoming =>
    obtain ⟨content, -, rfl⟩ := (JavaScript.map_eq_ok _ _ _).mp carried
    exact put other content apart

theorem carryAll_frame {path : String} :
    ∀ {plan : List (Planned Text)} {drive after : Drive Text},
      carryAll runtime tokens drive plan = .ok after → path ∉ plan.map Planned.path →
        after.SameAt path drive
  | [], drive, after, carried, _ => by cases carried; exact ⟨rfl, rfl⟩
  | item :: plan, drive, after, carried, apart => by
      obtain ⟨between, first, rest⟩ := (JavaScript.bind_eq_ok _ _ _).mp carried
      have other : item.path ≠ path := fun same => apart (List.mem_cons.mpr (.inl same.symm))
      have onItem := carryOut_frame runtime tokens first other
      have onRest := carryAll_frame rest fun member => apart (List.mem_cons_of_mem _ member)
      exact ⟨onRest.1.trans onItem.1, onRest.2.trans onItem.2⟩

/-- What an item of the plan finds and leaves at its own path, the paths being different. -/
theorem carryAll_at {item : Planned Text} :
    ∀ {plan : List (Planned Text)} {drive after : Drive Text},
      carryAll runtime tokens drive plan = .ok after → (plan.map Planned.path).Nodup →
        item ∈ plan → ∃ found left, carryOut runtime tokens found item = .ok left ∧
          found.SameAt item.path drive ∧ after.SameAt item.path left
  | [], _, _, _, _, member => nomatch member
  | head :: plan, drive, after, carried, distinct, member => by
      obtain ⟨between, first, rest⟩ := (JavaScript.bind_eq_ok _ _ _).mp carried
      obtain ⟨notIn, distinct⟩ := List.nodup_cons.mp distinct
      obtain rfl | member := List.mem_cons.mp member
      · exact ⟨drive, between, first, ⟨rfl, rfl⟩, carryAll_frame runtime tokens rest notIn⟩
      · obtain ⟨found, left, carriedItem, same, goesOn⟩ := carryAll_at rest distinct member
        have apart : head.path ≠ item.path := fun same =>
          notIn (same ▸ List.mem_map_of_mem member)
        have onHead := carryOut_frame runtime tokens first apart
        exact ⟨found, left, carriedItem, ⟨same.1.trans onHead.1, same.2.trans onHead.2⟩, goesOn⟩

theorem PlannedFor.path {hashes : Members String} {decisions : Members Choice}
    {entry : String × Payload Text} {item : Planned Text}
    (planned : PlannedFor runtime hashes decisions drive entry item) : item.path = entry.1 := by
  obtain ⟨path, payload⟩ := entry
  cases payload with
  | config incoming => exact planConfig_path runtime planned
  | _ => rw [planned]; rfl

theorem planned_paths {hashes : Members String} {decisions : Members Choice}
    {entries : List (String × Payload Text)} {plan : List (Planned Text)}
    (planned : List.Forall₂ (PlannedFor runtime hashes decisions drive) entries plan) :
    plan.map Planned.path = entries.map Prod.fst := by
  induction planned with
  | nil => rfl
  | cons first _ inductionHypothesis =>
    rw [List.map_cons, List.map_cons, inductionHypothesis, first.path]

theorem planned_of_mem {hashes : Members String} {decisions : Members Choice}
    {entries : List (String × Payload Text)} {plan : List (Planned Text)}
    (planned : List.Forall₂ (PlannedFor runtime hashes decisions drive) entries plan)
    {entry : String × Payload Text} (member : entry ∈ entries) :
    ∃ item ∈ plan, PlannedFor runtime hashes decisions drive entry item := by
  induction planned with
  | nil => cases member
  | cons first _ inductionHypothesis =>
    obtain rfl | member := List.mem_cons.mp member
    · exact ⟨_, List.mem_cons_self, first⟩
    · obtain ⟨item, inPlan, forEntry⟩ := inductionHypothesis member
      exact ⟨item, List.mem_cons_of_mem _ inPlan, forEntry⟩

/-! ### An application -/

/-- The bundle has been acknowledged before. -/
def Acknowledged (deps : InboxDeps) (bundle : Bundle Text) (state : InboxState) : Prop :=
  bundle.seq ≤ max state.lastInboxSeq (deps.lastInboxSeq.getD 0)

/-- A plan of the bundle for a drive with a state. -/
def PlanOf (choices : String → Choice → Prop) (deps : InboxDeps) (bundle : Bundle Text)
    (state : InboxState) (drive : Drive Text) (plan : List (Planned Text)) : Prop :=
  ∃ conflicts decisions, ConflictsOf runtime state.hashes drive bundle.entries conflicts ∧
    DecisionsOn choices (deps.isTTY && deps.canChoose) conflicts decisions ∧
    List.Forall₂ (PlannedFor runtime state.hashes decisions drive) bundle.entries plan

/-- What an application has done, with its outcome or cut off: nothing, some items of its plan,
or the plan and the state. -/
inductive Applied (choices : String → Choice → Prop) (deps : InboxDeps) (bundle : Bundle Text)
    (drive : Drive Text) : Option (Except String InboxResult) → Drive Text → Prop
  | nothing {outcome}
      (notDone : ∀ result, outcome = some (.ok result) → result.deferred = none →
        ∃ state, readState drive.state = .ok state ∧ Acknowledged deps bundle state) :
      Applied choices deps bundle drive outcome drive
  | some {outcome state plan done rest after} (read : readState drive.state = .ok state)
      (fresh : ¬ Acknowledged deps bundle state)
      (planOf : PlanOf runtime choices deps bundle state drive plan) (parts : plan = done ++ rest)
      (carried : carryAll runtime tokens drive done = .ok after)
      (notDone : ∀ result, outcome = some (.ok result) → result.deferred ≠ none) :
      Applied choices deps bundle drive outcome after
  | all {outcome state plan after hashes}
      (read : readState drive.state = .ok state) (fresh : ¬ Acknowledged deps bundle state)
      (planOf : PlanOf runtime choices deps bundle state drive plan)
      (carried : carryAll runtime tokens drive plan = .ok after)
      (recorded : RecordedAll plan state.hashes hashes) :
      Applied choices deps bundle drive outcome
        (after.setState ⟨max (max state.lastInboxSeq (deps.lastInboxSeq.getD 0)) bundle.seq, hashes⟩)

theorem applied_of_unchanged {deps : InboxDeps} {bundle : Bundle Text}
    {outcome : Option (Except String InboxResult)} {after : Drive Text} (same : after = drive)
    (notDone : ∀ result, outcome = Option.some (.ok result) → result.deferred ≠ none) :
    Applied runtime tokens choices deps bundle drive outcome after := by
  subst same
  exact .nothing fun result ok done => absurd done (notDone result ok)

/-- An application that goes on from a program that only reads. -/
theorem applied_of_reads {First : Type} {post : First → Prop} {deps : InboxDeps}
    {bundle : Bundle Text} {outcome : Option (Except String InboxResult)} {after : Drive Text}
    {program : Inbox Text First} {next : First → Inbox Text InboxResult}
    (reads : Reads (Drive.answers runtime choices) program drive post)
    (reaches : (program >>= next).Reaches (Drive.answers runtime choices) drive outcome after)
    (goesOn : ∀ first, post first → (next first).Reaches (Drive.answers runtime choices) drive
      outcome after → Applied runtime tokens choices deps bundle drive outcome after) :
    Applied runtime tokens choices deps bundle drive outcome after := by
  obtain ⟨same, none⟩ | ⟨first, holds, rest⟩ := reaches.of_reads_bind reads
  · exact applied_of_unchanged runtime tokens same fun result ok => absurd ok (none result)
  · exact goesOn first holds rest

/-- A run that ends with a deferral, or is cut off before, has changed nothing. -/
theorem applied_of_deferred {deps : InboxDeps} {bundle : Bundle Text}
    {outcome : Option (Except String InboxResult)} {after : Drive Text} {result : InboxResult}
    (deferred : result.deferred ≠ none)
    (reaches : (Program.done result : Inbox Text InboxResult).Reaches
      (Drive.answers runtime choices) drive outcome after) :
    Applied runtime tokens choices deps bundle drive outcome after := by
  obtain ⟨same, cut | ended⟩ := reaches.of_done
  · exact applied_of_unchanged runtime tokens same fun _ ok => by rw [cut] at ok; cases ok
  · refine applied_of_unchanged runtime tokens same fun other ok => ?_
    rw [ended] at ok
    cases ok
    exact deferred

/-- The plan and the state that is written when all of it was carried out. -/
theorem applied_of_plan {deps : InboxDeps} {bundle : Bundle Text} {state : InboxState}
    (read : readState drive.state = .ok state) (fresh : ¬ Acknowledged deps bundle state)
    {plan : List (Planned Text)} (planOf : PlanOf runtime choices deps bundle state drive plan)
    {outcome : Option (Except String InboxResult)} {after : Drive Text}
    (applied deferred : Progress → InboxResult) (isDeferred : ∀ progress,
      (deferred progress).deferred ≠ none)
    (reaches : (applyPlan runtime tokens ⟨0, state.hashes⟩ plan >>= fun ended =>
      if ended.2 then
        (attempt (.writeState
          ⟨max (max state.lastInboxSeq (deps.lastInboxSeq.getD 0)) bundle.seq, ended.1.hashes⟩) :
            Inbox Text Unit) >>= fun _ => return applied ended.1
      else return deferred ended.1).Reaches (Drive.answers runtime choices) drive outcome after) :
    Applied runtime tokens choices deps bundle drive outcome after := by
  obtain ⟨cut, reached⟩ | ⟨error, failed, reached⟩ | ⟨⟨progress, complete⟩, between, reached, rest⟩ :=
    Reaches.of_bind _ reaches
  · obtain ⟨⟨done, left, parts, carried⟩, -⟩ := reaches_applyPlan runtime tokens _ _ reached
    exact .some read fresh planOf parts carried fun _ ok => by rw [cut] at ok; cases ok
  · obtain ⟨⟨done, left, parts, carried⟩, -⟩ := reaches_applyPlan runtime tokens _ _ reached
    exact .some read fresh planOf parts carried fun _ ok => by rw [failed] at ok; cases ok
  obtain ⟨⟨done, left, parts, carried⟩, ends⟩ := reaches_applyPlan runtime tokens _ _ reached
  cases complete with
  | false =>
    obtain ⟨rfl, cut | ended⟩ := rest.of_done
    · exact .some read fresh planOf parts carried fun _ ok => by rw [cut] at ok; cases ok
    · refine .some read fresh planOf parts carried fun other ok => ?_
      rw [ended] at ok
      cases ok
      exact isDeferred progress
  | true =>
    obtain ⟨carriedAll, recorded⟩ := ends progress rfl
    obtain ⟨written, ended⟩ := reaches_write runtime (.writeState
      ⟨max (max state.lastInboxSeq (deps.lastInboxSeq.getD 0)) bundle.seq, progress.hashes⟩) _
        (fun _ _ writes => writes) rest
    by_cases ok : ∃ result, outcome = some (.ok result)
    · obtain ⟨result, ok⟩ := ok
      obtain ⟨rfl, -⟩ := ended result ok
      exact .all read fresh planOf carriedAll recorded
    obtain rfl | rfl := written
    · exact .some read fresh planOf (List.append_nil plan).symm carriedAll fun result isOk =>
        absurd ⟨result, isOk⟩ ok
    · exact .all read fresh planOf carriedAll recorded

/-- Every run of an application is as said. -/
theorem reaches_applyInbox (deps : InboxDeps) (bundle : Bundle Text)
    {outcome : Option (Except String InboxResult)} {after : Drive Text}
    (reaches : (applyInbox runtime tokens deps bundle).Reaches (Drive.answers runtime choices)
      drive outcome after) :
    Applied runtime tokens choices deps bundle drive outcome after := by
  have readsState : Reads (Drive.answers runtime choices)
      (attempt .readState : Inbox Text InboxState) drive fun state =>
        readState drive.state = .ok state :=
    reads_attempt fun _ _ answers => answers
  refine applied_of_reads runtime tokens readsState reaches fun state read reaches => ?_
  dsimp only at reaches
  split at reaches
  next acknowledged =>
    obtain ⟨rfl, -⟩ := reaches.of_done
    exact .nothing fun _ _ _ => ⟨state, read, acknowledged⟩
  next fresh =>
  split at reaches
  · exact applied_of_deferred runtime tokens (Option.some_ne_none _) reaches
  refine applied_of_reads runtime tokens (reads_findConflicts runtime _ _) reaches
    fun conflicts isConflicts reaches => ?_
  split at reaches
  · exact applied_of_deferred runtime tokens (Option.some_ne_none _) reaches
  next canDecide =>
  refine applied_of_reads runtime tokens (reads_chooseAll runtime _ _) reaches
    fun decided isDecided reaches => ?_
  cases decided with
  | none => exact applied_of_deferred runtime tokens (Option.some_ne_none _) reaches
  | some decisions =>
    refine applied_of_reads runtime tokens (reads_planEntries runtime _ _ _) reaches
      fun plan planned reaches => ?_
    obtain ⟨samePaths, allChosen, can⟩ := isDecided decisions rfl
    have decisionsOn : DecisionsOn choices (deps.isTTY && deps.canChoose) conflicts decisions := by
      refine ⟨samePaths, allChosen, fun nonempty => ?_⟩
      rw [can nonempty, Bool.and_true]
      exact (Bool.not_eq_false _).mp fun notTTY => canDecide ⟨nonempty, notTTY⟩
    let last := max state.lastInboxSeq (deps.lastInboxSeq.getD 0)
    exact applied_of_plan runtime tokens read fresh
      ⟨conflicts, decisions, isConflicts, decisionsOn, planned⟩
      (fun progress => ⟨progress.applied, bundle.entries.length - progress.applied, conflicts, none,
        max last bundle.seq⟩)
      (fun progress => ⟨progress.applied, bundle.entries.length - progress.applied, conflicts,
        some "credential changed during restore; retry the inbox", last⟩)
      (fun _ => Option.some_ne_none _) reaches

end Applying

end AiSwitcher.Live
