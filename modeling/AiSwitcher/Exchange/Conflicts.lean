/-
This file embeds `apps/host/crates/core/src/conflicts.rs`: the three-way comparison of the
configuration files of a source with those of a drive and the hashes last common to both.
-/

import AiSwitcher.Exchange.Contract

namespace AiSwitcher.Exchange

open JavaScript

inductive ConflictChoice where
  | keepDrive
  | useSource
  | defer
  deriving DecidableEq

inductive ConflictReason where
  | diverged
  | missingBaseline
  | staleOutbox
  deriving DecidableEq

structure Conflict where
  path : String
  pathClass : PathClass
  commonHash : Option String
  sourceHash : Option String
  driveHash : Option String
  choice : ConflictChoice
  reason : ConflictReason
  deriving DecidableEq

structure ConfigAnalysis where
  included : List String
  retained : List String
  conflicts : List Conflict
  deriving DecidableEq

/-- What becomes of a configuration file of the source. -/
inductive Verdict where
  | include
  | retain
  | conflict (reason : ConflictReason)
  deriving DecidableEq

def verdict (outboxCurrent : Bool) (current baseline : Option String) (sha256 : String) : Verdict :=
  if !outboxCurrent then .conflict .staleOutbox
  else if current = some sha256 then .retain
  else if baseline = none ∨ current = none then .conflict .missingBaseline
  else if current = baseline then .include
  else if baseline = some sha256 then .retain
  else .conflict .diverged

/-- The hashes of the configuration files among some entries; the last one counts where a path
is listed twice. -/
def configHashes (entries : List BundleEntry) : Members String :=
  ((entries.filter fun entry => entry.pathClass.isConfig).map fun entry =>
    (entry.path, entry.sha256)).reverse

def analyse (source drive : List BundleEntry) (common : Members String) (outboxCurrent : Bool) :
    ConfigAnalysis :=
  let configs := source.filter fun entry => entry.pathClass.isConfig
  let judge (entry : BundleEntry) : Verdict :=
    verdict outboxCurrent ((configHashes drive).get entry.path) (common.get entry.path) entry.sha256
  let paths (wanted : Verdict) : List String :=
    (configs.filter fun entry => judge entry = wanted).map BundleEntry.path
  { included := paths .include
    retained := paths .retain
    conflicts := configs.filterMap fun entry =>
      match judge entry with
      | .conflict reason => some
          { path := entry.path
            pathClass := entry.pathClass
            commonHash := common.get entry.path
            sourceHash := some entry.sha256
            driveHash := (configHashes drive).get entry.path
            choice := .defer
            reason := reason }
      | _ => none }

/-- A choice is recorded for review; only keeping the drive's file has an effect. -/
def applyChoices (analysis : ConfigAnalysis) (choices : Members ConflictChoice) :
    Except String ConfigAnalysis := do
  ensure (choices.all fun choice => analysis.conflicts.any fun conflict => conflict.path == choice.1)
    "configuration choices do not match this preview"
  let conflicts := analysis.conflicts.map fun conflict =>
    { conflict with choice := (choices.get conflict.path).getD .defer }
  let kept := conflicts.filter fun conflict => conflict.choice = .keepDrive
  return { analysis with
    retained := analysis.retained ++ kept.map Conflict.path
    conflicts := conflicts }

/-- The choices leave alone what is included. -/
theorem included_applyChoices {analysis chosen : ConfigAnalysis} {choices : Members ConflictChoice}
    (applied : applyChoices analysis choices = .ok chosen) : chosen.included = analysis.included := by
  obtain ⟨-, ended⟩ := (ensure_bind_eq_ok _ _ _ _).mp applied
  cases ended
  rfl

theorem verdict_eq_include_iff {outboxCurrent : Bool} {current baseline : Option String}
    {sha256 : String} :
    verdict outboxCurrent current baseline sha256 = .include ↔
      outboxCurrent = true ∧ current = baseline ∧ baseline ≠ none ∧ baseline ≠ some sha256 := by
  unfold verdict
  constructor
  · intro included
    split_ifs at included with stale same missing unchanged
    · refine ⟨by simpa using stale, unchanged, fun none => missing (.inl none), fun equal => ?_⟩
      exact same (unchanged.trans equal)
  · rintro ⟨isCurrent, rfl, present, differs⟩
    rw [isCurrent, if_neg (by decide), if_neg differs, if_neg (by simpa using present), if_pos rfl]

/-- A file is included only if the drive still has the version that was last common and the
source has another one. -/
theorem mem_included_analyse {source drive : List BundleEntry} {common : Members String}
    {outboxCurrent : Bool} {path : String}
    (included : path ∈ (analyse source drive common outboxCurrent).included) :
    outboxCurrent = true ∧ ∃ entry ∈ source, entry.path = path ∧
      (configHashes drive).get path = common.get path ∧ common.get path ≠ none ∧
      common.get path ≠ some entry.sha256 := by
  obtain ⟨entry, member, rfl⟩ := List.mem_map.mp included
  obtain ⟨member, judged⟩ := List.mem_filter.mp member
  obtain ⟨isCurrent, same, present, differs⟩ := verdict_eq_include_iff.mp (of_decide_eq_true judged)
  exact ⟨isCurrent, entry, (List.mem_filter.mp member).1, rfl, same, present, differs⟩

end AiSwitcher.Exchange
