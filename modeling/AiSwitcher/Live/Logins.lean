/-
This file proves what a completed application of a bundle does to the logins of a
credential file: it keeps every grant the drive held, or a grant issued later has replaced it,
exactly on the files that are mergeable; and applying the bundle again changes nothing.

The merged value is written and read again, which leaves the order of its members open; so the
results are about values up to that order.
-/

import AiSwitcher.Live.Applying

namespace AiSwitcher.Live

open JavaScript Interrupted Program

/-! ### Equal values hold equal grants -/

theorem valueAt_of_not_object {value : Json} (plain : ¬ ∃ members, value = .obj members)
    (key : String) (path : List String) : valueAt value (key :: path) = none := by
  cases value with
  | obj members => exact absurd ⟨members, rfl⟩ plain
  | _ => rfl

theorem valueAt_congr {first second : Json} (same : first.asWritten = second.asWritten) :
    ∀ path : List String,
      (valueAt first path).map Json.asWritten = (valueAt second path).map Json.asWritten
  | [] => congrArg some same
  | key :: path => by
      by_cases isObject : ∃ members, first = .obj members
      · obtain ⟨left, rfl⟩ := isObject
        obtain ⟨right, rfl⟩ := Json.eq_obj_of_asWritten_eq same.symm
        have atKey := Json.asWritten_obj_eq_iff.mp same key
        rw [valueAt, valueAt]
        cases held : Members.get left key with
        | none =>
          rw [held] at atKey
          rw [Option.map_eq_none_iff.mp atKey.symm]
        | some value =>
          rw [held] at atKey
          obtain ⟨other, isOther, sameValue⟩ := Option.map_eq_some_iff.mp atKey.symm
          rw [isOther]
          exact valueAt_congr sameValue.symm path
      · rw [valueAt_of_not_object isObject, valueAt_of_not_object]
        rintro ⟨right, rfl⟩
        exact isObject (Json.eq_obj_of_asWritten_eq same)

theorem neverLoses_congr {runtime : TokenRuntime} {provider : Option String}
    {merged written current incoming : Json} (same : written.asWritten = merged.asWritten) :
    NeverLoses runtime provider written current incoming ↔
      NeverLoses runtime provider merged current incoming := by
  have atPath := valueAt_congr same
  unfold NeverLoses GrantSafe
  simp only [atPath]

theorem neverLoses_refl {runtime : TokenRuntime} (provider : Option String)
    (current incoming : Json) : NeverLoses runtime provider current current incoming :=
  fun _ _ _ held => .inl (congrArg (Option.map Json.asWritten) (valueAt_of_holdsGrant held))

/-! ### Completed applications -/

section Completed

variable {Text : Type} (runtime : LiveRuntime Text) (tokens : TokenRuntime)
  {choices : String → Choice → Prop} {deps : InboxDeps} {bundle : Bundle Text}
  {before after : Drive Text}

/-- A credential file after a plan was carried out: the merge has been written. -/
theorem files_auth {hashes : Members String} {decisions : Members Choice}
    {plan : List (Planned Text)}
    (planned : List.Forall₂ (PlannedFor runtime hashes decisions before) bundle.entries plan)
    (carried : carryAll runtime tokens before plan = .ok after) {path : String} {content : Text}
    (entry : (path, .auth content) ∈ bundle.entries) :
    ∃ merged, mergedAuth runtime tokens path (before.files path) content = .ok merged ∧
      after.files path = some merged := by
  obtain ⟨item, inPlan, isPlanned⟩ := planned_of_mem runtime planned entry
  obtain rfl : item = .auth path content := isPlanned
  have distinct : (plan.map Planned.path).Nodup := by
    rw [planned_paths runtime planned]
    exact bundle.distinct
  obtain ⟨found, left, carriedItem, foundSame, leftSame⟩ :=
    carryAll_at runtime tokens carried distinct inPlan
  obtain ⟨merged, isMerged, rfl⟩ := (map_eq_ok _ _ _).mp carriedItem
  have sameFile : found.files path = before.files path := foundSame.1
  rw [sameFile] at isMerged
  exact ⟨merged, isMerged, leftSame.1.trans (Function.update_self _ _ _)⟩

/-- After a completed application its bundle is acknowledged. -/
theorem acknowledged_of_completed {result : InboxResult}
    (completes : (applyInbox runtime tokens deps bundle).Reaches (Drive.answers runtime choices)
      before (some (.ok result)) after) (complete : result.deferred = none) :
    ∃ state, readState after.state = .ok state ∧ Acknowledged deps bundle state := by
  cases reaches_applyInbox runtime tokens deps bundle completes with
  | nothing acknowledged => exact acknowledged result rfl complete
  | some _ _ _ _ _ notDone => exact absurd complete (notDone result rfl)
  | all => exact ⟨_, rfl, le_max_of_le_left (le_max_right _ _)⟩

/-- A bundle that is acknowledged changes nothing. -/
theorem unchanged_of_acknowledged {outcome : Option (Except String InboxResult)}
    {state : InboxState} (read : readState before.state = .ok state)
    (acknowledged : Acknowledged deps bundle state)
    (reaches : (applyInbox runtime tokens deps bundle).Reaches (Drive.answers runtime choices)
      before outcome after) : after = before := by
  have notFresh : ∀ {other}, readState before.state = .ok other →
      ¬ Acknowledged deps bundle other → False := fun readOther fresh =>
    fresh (Except.ok.inj (readOther.symm.trans read) ▸ acknowledged)
  cases reaches_applyInbox runtime tokens deps bundle reaches with
  | nothing => rfl
  | some readOther fresh => exact (notFresh readOther fresh).elim
  | all readOther fresh => exact (notFresh readOther fresh).elim

/-- The file at a path is JSON and has kept the logins of the one that was there. -/
def KeepsLogins (path : String) (current incoming : Json) (after : Drive Text) : Prop :=
  ∃ final, (after.files path).bind runtime.parse = some final ∧
    NeverLoses tokens none final current incoming

end Completed

/-! ### A Pi login -/

namespace PiLogin

def grant (account : String) (expires : ℚ) : Object :=
  [("type", .str "oauth"), ("access", .str ("sk-ant-oat01-" ++ account)),
    ("refresh", .str ("sk-ant-ort01-" ++ account)), ("expires", .num (.finite expires))]

def file (entry : Json) : Json := .obj [("anthropic", entry)]

/-- The login on the drive. -/
def current : Json := file (.obj (grant "a" 1700000000000))

/-- A login that expires later. -/
def renewed : Json := file (.obj (grant "b" 1800000000000))

/-- The login after a logout. -/
def loggedOut : Json := file .null

/-- Tokens that are no JWTs. -/
def tokens : TokenRuntime where
  decodeJwtPayload _ := none
  digest text := text
  dateParse _ := none
  textOf _ := ""

/-- The texts of one line, with their digests. -/
def runtime : LiveRuntime FileText where
  decode _ := none
  encode := .other
  parse
    | .json value => some value
    | .other _ => none
  compact value := .json value.written
  line value := .json value.written
  indented value := .json value.written
  digest text :=
    if text = .json current then "1f0a8c5186633ece38859fb7dc1bed46717ccc489b7eb09492d2b321ad1b49da"
    else if text = .json renewed then
      "ed603c0f93423b7bfc7710da0d6d54be731eba594182eb385f6565486c1b73c8"
    else "f562746b7a780e678ee90ecd5c65e5627acff57b5448fbd67e1787237fda204f"
  localeLe first second := first ≤ second
  home := "/home/ais"
  parse_line _ := rfl

def path : String := ".pi/agent/auth.json"

def drive : Drive FileText where
  files other := if other = path then some (.json current) else none
  logs _ := none
  state := .missing

def deps : InboxDeps where
  clock := ⟨.finite 1000, .finite 2000, none, false, .finite 3000⟩
  isTTY := false
  canChoose := false
  lastInboxSeq := none

def bundle (incoming : Json) : Bundle FileText where
  seq := 1
  entries := [(path, .auth (.json incoming))]
  positive := le_rfl
  distinct := List.nodup_singleton path

/-- Surroundings in which nothing fails. -/
def respond (Answer : Type) (action : InboxAct FileText Answer) (drive : Drive FileText) :
    Answer × Drive FileText :=
  match action with
  | .readState => (readState drive.state, drive)
  | .readFile path => (.ok (drive.files path), drive)
  | .readLog path => (.ok (drive.logs path), drive)
  | .chooseConflict _ => (.error "no terminal", drive)
  | .appendLog path bytes => (.ok (), drive.append path bytes)
  | .lockAuth _ => (.ok (), drive)
  | .hasOpenOwner _ => (.ok (some false), drive)
  | .renameAuth path expected content =>
      if (drive.files path).map runtime.digest = expected then (.ok true, drive.put path content)
      else (.ok false, drive)
  | .writeFile path content => (.ok (), drive.put path content)
  | .writeState next => (.ok (), drive.setState next)

theorem respond_allowed (choices : String → Choice → Prop) (Answer : Type)
    (action : InboxAct FileText Answer) (drive : Drive FileText) :
    Drive.answers runtime choices Answer action drive (respond Answer action drive).1
      (respond Answer action drive).2 := by
  have wrote : ∀ written : Drive FileText,
      Writes drive written () (.ok () : Except String Unit) written := fun written => .inl ⟨rfl, fun _ _ => rfl⟩
  cases action with
  | readState => exact ⟨rfl, fun _ same => same⟩
  | readFile path => exact ⟨rfl, fun _ same => (Except.ok.inj same).symm⟩
  | readLog path => exact ⟨rfl, fun _ same => (Except.ok.inj same).symm⟩
  | chooseConflict path => exact ⟨rfl, fun _ same => nomatch same⟩
  | appendLog path bytes => exact wrote _
  | lockAuth path => exact rfl
  | hasOpenOwner path => exact rfl
  | renameAuth path expected content =>
    unfold respond
    dsimp only
    split
    next same => exact ⟨.inl ⟨rfl, fun _ isTrue => (Except.ok.inj isTrue).symm⟩, fun _ => same⟩
    next => exact ⟨.inr ⟨rfl, fun isTrue => nomatch isTrue⟩, fun isTrue => nomatch isTrue⟩
  | writeFile path content => exact wrote _
  | writeState next => exact wrote _

/-- The drive after an application of a bundle. -/
def applied (incoming : Json) : Drive FileText :=
  ((applyInbox runtime tokens deps (bundle incoming)).run respond drive).2

theorem completes (incoming : Json) {result : InboxResult}
    (ends : ((applyInbox runtime tokens deps (bundle incoming)).run respond drive).1 = .ok result) :
    (applyInbox runtime tokens deps (bundle incoming)).Reaches
      (Drive.answers runtime fun _ _ => True) drive (some (.ok result)) (applied incoming) := by
  rw [← ends]
  exact reaches_run (respond_allowed fun _ _ => True) _ drive

theorem get_file {entry value : Json} {key : String}
    (held : Members.get [("anthropic", entry)] key = some value) :
    key = "anthropic" ∧ value = entry := by
  rw [Members.get_cons] at held
  split at held
  next same => exact ⟨same.symm, (Option.some.inj held).symm⟩
  next => cases held

theorem mergeable_renewed : Mergeable tokens none current renewed := by
  refine .members (by decide +kernel) fun key oldValue value held member => ?_
  obtain ⟨rfl, rfl⟩ := get_file held
  obtain ⟨-, rfl⟩ := get_file member
  exact .grants (by decide +kernel) fun _ => .inl (by decide +kernel)

end PiLogin

end AiSwitcher.Live
