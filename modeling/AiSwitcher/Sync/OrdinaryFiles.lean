/-
This file embeds the ordinary-file branch of `mergeIncomingProfileTree` in
`src/sync/tree-merge.ts`: the comparison of a staged file with the live one, the choice
of the winner, the ledger of the conflicts archived before and the copy that keeps the
modification time. It proves when two hosts that merge each other's copies agree.

The winner is the version with the greatest modification time, then size, then digest.
The comparison in front of that choice takes two files of one size and one modification
time for equal without reading them, and exactly those pairs are left apart.
-/

import AiSwitcher.Library.Pattern
import AiSwitcher.Library.Text
import Mathlib.Data.Prod.Lex
import Mathlib.Data.String.Basic
import Mathlib.Algebra.Order.Ring.Unbundled.Rat

namespace AiSwitcher.TreeMerge

open JavaScript JavaScript.Pattern

/-! ### Files and homes -/

/-- What the merge takes from the runtime: the size and the hexadecimal SHA-256 digest of a
file's contents and the `Date` that `stat` makes of a modification time. -/
structure Runtime (Text : Type) where
  size : Text → Nat
  sha256Hex : Text → String
  statDate : ℚ → ℚ

/-- A file's contents, of any type that has a size and a digest, and its modification time. -/
structure SyncFile (Text : Type) where
  content : Text
  mtimeMs : ℚ
  deriving DecidableEq

/-- Whose version a preserved copy is. -/
inductive Side where
  | «local»
  | incoming
  deriving DecidableEq

/-- A losing version under the conflict root. -/
structure Preserved (Text : Type) where
  side : Side
  rel : String
  content : Text
  deriving DecidableEq

/-- One host: its files by relative path, the paths its user may write, the digests
archived before for each path (`merge-conflict-seen.json`) and the archive itself. -/
structure Home (Text : Type) where
  files : String → Option (SyncFile Text)
  writable : String → Bool
  seen : String → List String
  archive : List (Preserved Text)

structure TreeMergeResult where
  copiedFiles : Nat
  preservedConflicts : Nat
  preservedConflictPaths : List String
  deniedPaths : List String

/-- A merge under way. -/
structure Merge (Text : Type) where
  home : Home Text
  result : TreeMergeResult

variable {Text : Type}

namespace Merge

variable (merge : Merge Text) (rel : String)

def write (file : SyncFile Text) : Merge Text :=
  { merge with home.files := Function.update merge.home.files rel (some file) }

/-- A write that the file system refuses is reported, and the run carries on. -/
def tolerateDenied (file : SyncFile Text) (done : Merge Text → Merge Text) : Merge Text :=
  if merge.home.writable rel then done (merge.write rel file)
  else { merge with result.deniedPaths := merge.result.deniedPaths ++ [rel] }

def copied : Merge Text :=
  { merge with result.copiedFiles := merge.result.copiedFiles + 1 }

def preserveFile (side : Side) (loser : SyncFile Text) : Merge Text :=
  { merge with home.archive := merge.home.archive ++ [⟨side, rel, loser.content⟩] }

def countConflict : Merge Text :=
  { merge with
    result.preservedConflicts := merge.result.preservedConflicts + 1
    result.preservedConflictPaths := merge.result.preservedConflictPaths ++ [rel] }

/-- What the ledger's `isNew` does with a digest that is not in the list of its path yet. -/
def record (digest : String) : Merge Text :=
  let list := merge.home.seen rel ++ [digest]
  { merge with home.seen := Function.update merge.home.seen rel (list.drop (list.length - 8)) }

/-- The loser of a fresh conflict is entered in the ledger and archived. -/
def keepLoser (fresh : Bool) (digest : String) (side : Side) (loser : SyncFile Text) : Merge Text :=
  if fresh then (merge.record rel digest).preserveFile rel side loser else merge

/-- Only a fresh conflict is reported. -/
def countFresh (fresh : Bool) : Merge Text :=
  if fresh then merge.countConflict rel else merge

end Merge

/-! ### Comparing and choosing -/

/-- `VOLATILE_STATE`. -/
def volatileState : Pattern :=
  .either
    (afterSlash (oneOf
      [exactly ".last-cleanup", exactly ".last-update-result.json", exactly "settings_cache.json",
        exactly ".last_inuse_sweep", all [segment, exactly ".log"], exactly "version.json",
        exactly "bundled/manifest.json", exactly "known_marketplaces.json",
        all [exactly "plugins/synced/", atLeastOne dot], all [segment, exactly ".ais-bak"],
        all [exactly "subagents/", segment, exactly ".meta.json"],
        all [segment, exactly ".", oneOf [exactly "signature", exactly "stamp"], exactly ".json"],
        all [segment, exactly ".synced-at"],
        all [exactly ".grok/identities/", segment, exactly "/sessions/", atLeastOne dot,
          exactly "/summary.json"]]))
    (afterSlash (all
      [exactly "identities/", segment, exactly "/",
        oneOf [exactly ".credentials.json", exactly "credentials.json",
          all [exactly "auth.", oneOf [exactly "json", exactly "toml"]],
          exactly "credentials/kimi-code.json",
          all [optional (exactly "data/"), exactly "opencode/auth.json"]]]))

variable (runtime : Runtime Text)

def convergeMtime (source destination : SyncFile Text) (rel : String) (merge : Merge Text) :
    Merge Text :=
  if destination.mtimeMs < source.mtimeMs then
    merge.tolerateDenied rel { destination with mtimeMs := runtime.statDate source.mtimeMs } id
  else merge

/-- The copy at the clock reading `now`. -/
def copyKeepingMtime (now : ℚ) (source : SyncFile Text) : SyncFile Text :=
  { source with
    mtimeMs := if 2000 ≤ now - source.mtimeMs then runtime.statDate source.mtimeMs else now }

def sourceWinsTie (source destination : SyncFile Text) : Bool :=
  if runtime.size source.content ≠ runtime.size destination.content then
    runtime.size destination.content < runtime.size source.content
  else runtime.sha256Hex destination.content < runtime.sha256Hex source.content

def sourceWins (source destination : SyncFile Text) : Bool :=
  if source.mtimeMs ≠ destination.mtimeMs then destination.mtimeMs < source.mtimeMs
  else sourceWinsTie runtime source destination

/-! ### A conflict -/

/-- Two different versions of one path: the winner stays or is copied, and the loser is kept
unless its path is volatile or the ledger has its digest. -/
def mergeConflict (now : ℚ) (rel : String) (source destination : SyncFile Text)
    (merge : Merge Text) : Merge Text :=
  let wins := sourceWins runtime source destination
  let loser := if wins then destination else source
  let digest := runtime.sha256Hex loser.content
  let fresh := !volatileState.test rel && !(merge.home.seen rel).contains digest
  if wins then
    (merge.keepLoser rel fresh digest .local loser).tolerateDenied rel
      (copyKeepingMtime runtime now source) (Merge.countFresh · rel fresh)
  else (merge.keepLoser rel fresh digest .incoming loser).countFresh rel fresh

/-! ### The order of versions -/

/-- What the merge orders versions by: the modification time, then the size, then the
digest. -/
def rank (file : SyncFile Text) : ℚ ×ₗ ℕ ×ₗ String :=
  toLex (file.mtimeMs, toLex (runtime.size file.content, runtime.sha256Hex file.content))

theorem sourceWins_iff (source destination : SyncFile Text) :
    sourceWins runtime source destination = true ↔
      rank runtime destination < rank runtime source := by
  unfold sourceWins sourceWinsTie rank
  rw [Prod.Lex.toLex_lt_toLex, Prod.Lex.toLex_lt_toLex]
  by_cases times : source.mtimeMs = destination.mtimeMs
  · by_cases sizes : runtime.size source.content = runtime.size destination.content
    · simp [times, sizes]
    · simp [times, sizes]
      exact fun same => absurd same.symm sizes
  · have apart : destination.mtimeMs ≠ source.mtimeMs := fun same => times same.symm
    simp [times, apart]

/-- Versions of different sizes or times differ in the order. -/
theorem rank_ne {mine theirs : SyncFile Text}
    (stats : ¬ (runtime.size mine.content = runtime.size theirs.content ∧
      mine.mtimeMs = theirs.mtimeMs)) :
    rank runtime mine ≠ rank runtime theirs := by
  intro same
  have parts := congrArg ofLex same
  exact stats ⟨congrArg (fun key => (ofLex key.2).1) parts, congrArg Prod.fst parts⟩

/-! ### What a merge leaves alone -/

/-- The path is as before, and the archive has lost nothing. -/
structure Home.SameAt (rel : String) (before after : Home Text) : Prop where
  files : after.files rel = before.files rel
  writable : after.writable rel = before.writable rel
  seen : after.seen rel = before.seen rel
  archive : before.archive ⊆ after.archive

theorem Home.SameAt.refl (rel : String) (home : Home Text) : home.SameAt rel home :=
  ⟨rfl, rfl, rfl, fun _ member => member⟩

theorem Home.SameAt.trans {rel : String} {first second third : Home Text}
    (left : first.SameAt rel second) (right : second.SameAt rel third) :
    first.SameAt rel third :=
  ⟨right.files.trans left.files, right.writable.trans left.writable,
    right.seen.trans left.seen, fun _ member => right.archive (left.archive member)⟩

section Elsewhere

variable {rel other : String} (merge : Merge Text)

theorem sameAt_write (apart : rel ≠ other) (file : SyncFile Text) :
    merge.home.SameAt rel (merge.write other file).home :=
  ⟨Function.update_of_ne apart _ _, rfl, rfl, fun _ member => member⟩

theorem sameAt_tolerateDenied (apart : rel ≠ other) (file : SyncFile Text)
    {done : Merge Text → Merge Text}
    (counts : ∀ merge : Merge Text, (done merge).home = merge.home) :
    merge.home.SameAt rel (merge.tolerateDenied other file done).home := by
  unfold Merge.tolerateDenied
  split
  · rw [counts]
    exact sameAt_write merge apart file
  · exact .refl rel merge.home

theorem sameAt_keepLoser (apart : rel ≠ other) (fresh : Bool) (digest : String) (side : Side)
    (loser : SyncFile Text) :
    merge.home.SameAt rel (merge.keepLoser other fresh digest side loser).home := by
  cases fresh with
  | false => exact .refl rel merge.home
  | true =>
    exact ⟨rfl, rfl, Function.update_of_ne apart _ _,
      fun _ member => List.mem_append_left _ member⟩

end Elsewhere

@[simp] theorem home_countFresh (merge : Merge Text) (rel : String) (fresh : Bool) :
    (merge.countFresh rel fresh).home = merge.home := by
  cases fresh <;> rfl

theorem sameAt_mergeConflict {rel other : String} (apart : rel ≠ other) (now : ℚ)
    (source destination : SyncFile Text) (merge : Merge Text) :
    merge.home.SameAt rel (mergeConflict runtime now other source destination merge).home := by
  unfold mergeConflict
  dsimp only
  split
  · exact (sameAt_keepLoser merge apart _ _ _ _).trans
      (sameAt_tolerateDenied _ apart _ fun merge => home_countFresh merge other _)
  · rw [home_countFresh]
    exact sameAt_keepLoser merge apart _ _ _ _

/-! ### What a merge does at its own path -/

/-- A losing version has a copy in the archive, or the ledger had its digest. -/
def Archived (rel : String) (before after : Home Text) (loser : SyncFile Text) : Prop :=
  runtime.sha256Hex loser.content ∈ before.seen rel ∨
    ∃ side, ⟨side, rel, loser.content⟩ ∈ after.archive

/-- A losing version of a path that is not volatile is archived. -/
def Kept (rel : String) (before after : Home Text) (loser : SyncFile Text) : Prop :=
  volatileState.test rel = true ∨ Archived runtime rel before after loser

theorem Archived.of_sameAt {rel : String} {before start finish after : Home Text}
    {loser : SyncFile Text} (archived : Archived runtime rel start finish loser)
    (earlier : before.SameAt rel start) (later : finish.SameAt rel after) :
    Archived runtime rel before after loser :=
  archived.imp (fun seen => earlier.seen ▸ seen)
    fun ⟨side, member⟩ => ⟨side, later.archive member⟩

theorem archived_keepLoser (rel : String) (side : Side) (loser : SyncFile Text)
    (merge : Merge Text) {fresh : Bool}
    (isNew : (merge.home.seen rel).contains (runtime.sha256Hex loser.content) = false →
      fresh = true) :
    Archived runtime rel merge.home
      (merge.keepLoser rel fresh (runtime.sha256Hex loser.content) side loser).home loser := by
  by_cases archived : runtime.sha256Hex loser.content ∈ merge.home.seen rel
  · exact .inl archived
  rw [isNew (by simpa using archived)]
  exact .inr ⟨side, List.mem_append_right _ (List.mem_singleton_self _)⟩

theorem kept_keepLoser (rel : String) (side : Side) (loser : SyncFile Text) (merge : Merge Text) :
    Kept runtime rel merge.home
      (merge.keepLoser rel
        (!volatileState.test rel && !(merge.home.seen rel).contains
          (runtime.sha256Hex loser.content))
        (runtime.sha256Hex loser.content) side loser).home loser := by
  cases isVolatile : volatileState.test rel with
  | true => exact .inl isVolatile
  | false =>
    exact .inr (archived_keepLoser runtime rel side loser merge fun new => by rw [new]; rfl)

theorem files_keepLoser (rel : String) (fresh : Bool) (digest : String) (side : Side)
    (loser : SyncFile Text) (merge : Merge Text) :
    (merge.keepLoser rel fresh digest side loser).home.files = merge.home.files := by
  cases fresh <;> rfl

theorem writable_keepLoser (rel : String) (fresh : Bool) (digest : String) (side : Side)
    (loser : SyncFile Text) (merge : Merge Text) :
    (merge.keepLoser rel fresh digest side loser).home.writable = merge.home.writable := by
  cases fresh <;> rfl

/-! ### One file and a staged tree -/

variable [DecidableEq Text]

def filesEqual (source destination : SyncFile Text) (trustMtime : Bool) : Bool :=
  if runtime.size source.content ≠ runtime.size destination.content then false
  else if trustMtime && decide (source.mtimeMs = destination.mtimeMs) then true
  else decide (source.content = destination.content)

/-- One ordinary file of the walk. -/
def mergeIncomingFile (now : ℚ) (rel : String) (source : SyncFile Text) (merge : Merge Text) :
    Merge Text :=
  match merge.home.files rel with
  | none => merge.tolerateDenied rel (copyKeepingMtime runtime now source) Merge.copied
  | some destination =>
      if filesEqual runtime source destination true then
        convergeMtime runtime source destination rel merge
      else mergeConflict runtime now rel source destination merge

/-- The staged copy of another host's files: the walk meets each path once. -/
structure Staged (Text : Type) where
  entries : List (String × SyncFile Text)
  once : (entries.map Prod.fst).Nodup

/-- The staged files are the host's own. -/
def Staged.CopyOf (staged : Staged Text) (home : Home Text) : Prop :=
  ∀ entry ∈ staged.entries, home.files entry.1 = some entry.2

/-- Neither a registry, a JSONL history nor a `.claude.json`: those have merges of their own,
and none of them touches an ordinary path. -/
def isOrdinary (registries : List String) (rel : String) : Bool :=
  !registries.contains rel && !endsWith rel ".jsonl" &&
    !(endsWith rel "/.claude.json" || rel == ".claude.json")

/-- The ordinary files of one walk, `clock` being what `Date.now()` answers at each path. -/
def mergeOrdinaryFiles (registries : List String) (clock : String → ℚ) (staged : Staged Text)
    (home : Home Text) : Merge Text :=
  staged.entries.foldl
    (fun merge entry =>
      if isOrdinary registries entry.1 then
        mergeIncomingFile runtime (clock entry.1) entry.1 entry.2 merge
      else merge)
    ⟨home, ⟨0, 0, [], []⟩⟩

/-- The comparison that reads no file errs on two files of one size and one time. -/
theorem filesEqual_iff (source destination : SyncFile Text) :
    filesEqual runtime source destination true = true ↔
      runtime.size source.content = runtime.size destination.content ∧
        (source.mtimeMs = destination.mtimeMs ∨ source.content = destination.content) := by
  unfold filesEqual
  by_cases sizes : runtime.size source.content = runtime.size destination.content <;> simp [sizes]

theorem sameAt_mergeIncomingFile {rel other : String} (apart : rel ≠ other) (now : ℚ)
    (source : SyncFile Text) (merge : Merge Text) :
    merge.home.SameAt rel (mergeIncomingFile runtime now other source merge).home := by
  unfold mergeIncomingFile
  split
  · exact sameAt_tolerateDenied merge apart _ fun _ => rfl
  · split
    · unfold convergeMtime
      split
      · exact sameAt_tolerateDenied merge apart _ fun _ => rfl
      · exact .refl rel merge.home
    · exact sameAt_mergeConflict runtime apart now source _ merge

section AtThePath

variable {rel : String} {merge : Merge Text} {source destination : SyncFile Text}
variable (now : ℚ) (holds : merge.home.files rel = some destination)

include holds

/-- Files taken for equal keep their content. -/
theorem mergeIncomingFile_equal (equal : filesEqual runtime source destination true = true) :
    ∃ mtimeMs, (mergeIncomingFile runtime now rel source merge).home.files rel =
      some { destination with mtimeMs := mtimeMs } := by
  simp only [mergeIncomingFile, holds, equal, if_true, convergeMtime, Merge.tolerateDenied]
  split
  · split
    · exact ⟨_, Function.update_self rel _ _⟩
    · exact ⟨_, holds⟩
  · exact ⟨_, holds⟩

/-- Two files of one size and one time are never read. -/
theorem mergeIncomingFile_sameStat
    (sizes : runtime.size source.content = runtime.size destination.content)
    (times : source.mtimeMs = destination.mtimeMs) :
    mergeIncomingFile runtime now rel source merge = merge := by
  have equal := (filesEqual_iff runtime source destination).mpr ⟨sizes, .inl times⟩
  simp only [mergeIncomingFile, holds, equal, if_true, convergeMtime, times, lt_irrefl, if_false]

theorem mergeIncomingFile_sourceWins (writable : merge.home.writable rel = true)
    (different : filesEqual runtime source destination true = false)
    (wins : sourceWins runtime source destination = true) :
    (∃ mtimeMs, (mergeIncomingFile runtime now rel source merge).home.files rel =
        some { source with mtimeMs := mtimeMs }) ∧
      Kept runtime rel merge.home (mergeIncomingFile runtime now rel source merge).home
        destination := by
  have kept := kept_keepLoser runtime rel .local destination merge
  simp only [mergeIncomingFile, holds, different, if_false, mergeConflict, wins, if_true,
    Merge.tolerateDenied, writable_keepLoser, writable, home_countFresh, Bool.false_eq_true]
  exact ⟨⟨_, Function.update_self rel _ _⟩, kept⟩

theorem mergeIncomingFile_destinationWins
    (different : filesEqual runtime source destination true = false)
    (loses : sourceWins runtime source destination = false) :
    (mergeIncomingFile runtime now rel source merge).home.files rel = some destination ∧
      Kept runtime rel merge.home (mergeIncomingFile runtime now rel source merge).home
        source := by
  have kept := kept_keepLoser runtime rel .incoming source merge
  simp only [mergeIncomingFile, holds, different, if_false, mergeConflict, loses,
    home_countFresh, Bool.false_eq_true]
  exact ⟨by rw [files_keepLoser, holds], kept⟩

end AtThePath

/-! ### A whole walk -/

section Walk

variable (registries : List String) (clock : String → ℚ)

/-- What the walk does with one staged file. -/
def visit (merge : Merge Text) (entry : String × SyncFile Text) : Merge Text :=
  if isOrdinary registries entry.1 then
    mergeIncomingFile runtime (clock entry.1) entry.1 entry.2 merge
  else merge

theorem sameAt_foldl_visit {rel : String} :
    ∀ (entries : List (String × SyncFile Text)) (merge : Merge Text), rel ∉ entries.map Prod.fst →
      merge.home.SameAt rel (entries.foldl (visit runtime registries clock) merge).home
  | [], merge, _ => .refl rel merge.home
  | entry :: entries, merge, absent => by
      rw [List.map_cons, List.mem_cons, not_or] at absent
      have here : merge.home.SameAt rel (visit runtime registries clock merge entry).home := by
        unfold visit
        split
        · exact sameAt_mergeIncomingFile runtime absent.1 _ _ merge
        · exact .refl rel merge.home
      exact here.trans (sameAt_foldl_visit entries _ absent.2)

/-- Between the two states the path was merged with the staged file once, and nothing else
touched it. -/
def MergedAt (rel : String) (source : SyncFile Text) (before after : Home Text) : Prop :=
  ∃ (now : ℚ) (merge : Merge Text), before.SameAt rel merge.home ∧
    (mergeIncomingFile runtime now rel source merge).home.SameAt rel after

theorem mergeOrdinaryFiles_at {rel : String} {source : SyncFile Text} {staged : Staged Text}
    (ordinary : isOrdinary registries rel = true) (member : (rel, source) ∈ staged.entries)
    (home : Home Text) :
    MergedAt runtime rel source home
      (mergeOrdinaryFiles runtime registries clock staged home).home := by
  obtain ⟨earlier, later, split⟩ := List.append_of_mem member
  have once := staged.once
  rw [split, List.map_append, List.map_cons, List.nodup_append] at once
  have notEarlier : rel ∉ earlier.map Prod.fst := fun found =>
    once.2.2 rel found rel (List.mem_cons_self ..) rfl
  have notLater : rel ∉ later.map Prod.fst := (List.nodup_cons.mp once.2.1).1
  refine ⟨clock rel, _, sameAt_foldl_visit runtime registries clock earlier
    ⟨home, ⟨0, 0, [], []⟩⟩ notEarlier, ?_⟩
  have walk : mergeOrdinaryFiles runtime registries clock staged home =
      staged.entries.foldl (visit runtime registries clock) ⟨home, ⟨0, 0, [], []⟩⟩ := rfl
  rw [walk, split, List.foldl_append, List.foldl_cons]
  have here : ∀ merge, visit runtime registries clock merge (rel, source) =
      mergeIncomingFile runtime (clock rel) rel source merge := fun merge => if_pos ordinary
  rw [← here]
  exact sameAt_foldl_visit runtime registries clock later _ notLater

end Walk

namespace MergedAt

variable {runtime} {rel : String} {source destination : SyncFile Text} {before after : Home Text}

theorem equal (merged : MergedAt runtime rel source before after)
    (holds : before.files rel = some destination)
    (equal : filesEqual runtime source destination true = true) :
    ∃ mtimeMs, after.files rel = some { destination with mtimeMs := mtimeMs } := by
  obtain ⟨now, merge, earlier, later⟩ := merged
  rw [later.files]
  exact mergeIncomingFile_equal runtime now (earlier.files.trans holds) equal

theorem sameStat (merged : MergedAt runtime rel source before after)
    (holds : before.files rel = some destination)
    (sizes : runtime.size source.content = runtime.size destination.content)
    (times : source.mtimeMs = destination.mtimeMs) : after.files rel = some destination := by
  obtain ⟨now, merge, earlier, later⟩ := merged
  have here := earlier.files.trans holds
  rw [later.files, mergeIncomingFile_sameStat runtime now here sizes times, here]

theorem sourceWins (merged : MergedAt runtime rel source before after)
    (holds : before.files rel = some destination) (writable : before.writable rel = true)
    (different : filesEqual runtime source destination true = false)
    (wins : rank runtime destination < rank runtime source) :
    (∃ mtimeMs, after.files rel = some { source with mtimeMs := mtimeMs }) ∧
      Kept runtime rel before after destination := by
  obtain ⟨now, merge, earlier, later⟩ := merged
  obtain ⟨copied, kept⟩ := mergeIncomingFile_sourceWins runtime now
    (earlier.files.trans holds) (earlier.writable.trans writable) different
    ((sourceWins_iff runtime source destination).mpr wins)
  rw [later.files]
  exact ⟨copied, kept.imp id (Archived.of_sameAt runtime · earlier later)⟩

theorem destinationWins (merged : MergedAt runtime rel source before after)
    (holds : before.files rel = some destination)
    (different : filesEqual runtime source destination true = false)
    (loses : ¬ rank runtime destination < rank runtime source) :
    after.files rel = some destination ∧ Kept runtime rel before after source := by
  obtain ⟨now, merge, earlier, later⟩ := merged
  obtain ⟨stays, kept⟩ := mergeIncomingFile_destinationWins runtime now
    (earlier.files.trans holds) different
    (Bool.not_eq_true _ ▸ (sourceWins_iff runtime source destination).not.mpr loses)
  rw [later.files]
  exact ⟨stays, kept.imp id (Archived.of_sameAt runtime · earlier later)⟩

end MergedAt

/-! ### Two hosts -/

/-- Two hosts agree on a path they held in two versions: both end with the content of a
greatest version, and a host that held another one has kept it. -/
structure Agreed (rel : String) (mine theirs winner : SyncFile Text)
    (first second first' second' : Home Text) : Prop where
  version : winner = mine ∨ winner = theirs
  greatestMine : rank runtime mine ≤ rank runtime winner
  greatestTheirs : rank runtime theirs ≤ rank runtime winner
  onFirst : (first'.files rel).map SyncFile.content = some winner.content
  onSecond : (second'.files rel).map SyncFile.content = some winner.content
  keptMine : mine.content ≠ winner.content → Kept runtime rel first first' mine
  keptTheirs : theirs.content ≠ winner.content → Kept runtime rel second second' theirs

section TwoHosts

variable {runtime} {rel : String} {mine theirs : SyncFile Text}
variable {first second first' second' : Home Text}
variable (firstHolds : first.files rel = some mine) (secondHolds : second.files rel = some theirs)
variable (merged : MergedAt runtime rel theirs first first')
variable (mergedBack : ∀ copy, first'.files rel = some copy →
  MergedAt runtime rel copy second second')

include firstHolds secondHolds merged mergedBack

/-- Equal contents stay as they are, whatever becomes of the modification times. -/
theorem agreed_of_sameBytes (same : mine.content = theirs.content) :
    ∃ winner, Agreed runtime rel mine theirs winner first second first' second' := by
  have equal : ∀ source destination : SyncFile Text, source.content = destination.content →
      filesEqual runtime source destination true = true := fun source destination content =>
    (filesEqual_iff runtime source destination).mpr ⟨congrArg runtime.size content, .inr content⟩
  obtain ⟨mtimeMs, onFirst⟩ := merged.equal firstHolds (equal theirs mine same.symm)
  obtain ⟨mtimeMs', onSecond⟩ := (mergedBack _ onFirst).equal secondHolds (equal _ theirs same)
  obtain mineGreatest | theirsGreatest := le_total (rank runtime theirs) (rank runtime mine)
  · exact ⟨mine, .inl rfl, le_refl _, mineGreatest, by rw [onFirst]; rfl,
      by rw [onSecond]; exact congrArg some same.symm, fun lost => absurd rfl lost,
      fun lost => absurd same.symm lost⟩
  · exact ⟨theirs, .inr rfl, theirsGreatest, le_refl _, by rw [onFirst]; exact congrArg some same,
      by rw [onSecond]; rfl, fun lost => absurd same lost, fun lost => absurd rfl lost⟩

/-- The first host takes the other's version, and the way back finds equal contents. -/
theorem agreed_of_theirsWins (firstWritable : first.writable rel = true)
    (different : filesEqual runtime theirs mine true = false)
    (wins : rank runtime mine < rank runtime theirs) :
    Agreed runtime rel mine theirs theirs first second first' second' := by
  obtain ⟨⟨mtimeMs, onFirst⟩, kept⟩ := merged.sourceWins firstHolds firstWritable different wins
  obtain ⟨mtimeMs', onSecond⟩ := (mergedBack _ onFirst).equal secondHolds
    ((filesEqual_iff runtime _ theirs).mpr ⟨rfl, .inr rfl⟩)
  exact ⟨.inr rfl, wins.le, le_refl _, by rw [onFirst]; rfl, by rw [onSecond]; rfl,
    fun _ => kept, fun lost => absurd rfl lost⟩

/-- The first host keeps its version, and the other takes it on the way back. -/
theorem agreed_of_mineWins (secondWritable : second.writable rel = true)
    (different : filesEqual runtime theirs mine true = false)
    (differentBack : filesEqual runtime mine theirs true = false)
    (wins : rank runtime theirs < rank runtime mine) :
    Agreed runtime rel mine theirs mine first second first' second' := by
  obtain ⟨onFirst, -⟩ := merged.destinationWins firstHolds different wins.not_gt
  obtain ⟨⟨mtimeMs, onSecond⟩, kept⟩ :=
    (mergedBack _ onFirst).sourceWins secondHolds secondWritable differentBack wins
  exact ⟨.inl rfl, le_refl _, wins.le, by rw [onFirst]; rfl, by rw [onSecond]; rfl,
    fun lost => absurd rfl lost, fun _ => kept⟩

/-- Different contents of one size and one time stay where they are. -/
theorem not_agreed_of_sameStat (sizes : runtime.size mine.content = runtime.size theirs.content)
    (times : mine.mtimeMs = theirs.mtimeMs) (apart : mine.content ≠ theirs.content)
    (winner : SyncFile Text) :
    ¬ Agreed runtime rel mine theirs winner first second first' second' := by
  intro agreed
  have onFirst := merged.sameStat firstHolds sizes.symm times.symm
  have onSecond := (mergedBack _ onFirst).sameStat secondHolds sizes times
  have mineIsWinner := agreed.onFirst
  have theirsIsWinner := agreed.onSecond
  rw [onFirst] at mineIsWinner
  rw [onSecond] at theirsIsWinner
  exact apart (Option.some.inj (mineIsWinner.trans theirsIsWinner.symm))

end TwoHosts

theorem filesEqual_false {source destination : SyncFile Text}
    (apart : source.content ≠ destination.content)
    (stats : ¬ (runtime.size source.content = runtime.size destination.content ∧
      source.mtimeMs = destination.mtimeMs)) :
    filesEqual runtime source destination true = false := by
  rw [← Bool.not_eq_true, filesEqual_iff]
  rintro ⟨sizes, times | content⟩
  · exact stats ⟨sizes, times⟩
  · exact apart content

/-- Two hosts merge each other's staged copies, one after the other, and nobody edits in
between. They agree on an ordinary path exactly when their versions are not different
contents of one size and one modification time. -/
theorem mergeOrdinaryFiles_agree_iff (registries : List String) {rel : String}
    (ordinary : isOrdinary registries rel = true) {first second : Home Text}
    {mine theirs : SyncFile Text}
    (firstHolds : first.files rel = some mine) (secondHolds : second.files rel = some theirs)
    (firstWritable : first.writable rel = true) (secondWritable : second.writable rel = true)
    (firstClock secondClock : String → ℚ) {fromSecond fromFirst : Staged Text}
    (copySecond : fromSecond.CopyOf second)
    (copyFirst : fromFirst.CopyOf
      (mergeOrdinaryFiles runtime registries firstClock fromSecond first).home)
    (stagedSecond : rel ∈ fromSecond.entries.map Prod.fst)
    (stagedFirst : rel ∈ fromFirst.entries.map Prod.fst) :
    (∃ winner, Agreed runtime rel mine theirs winner first second
        (mergeOrdinaryFiles runtime registries firstClock fromSecond first).home
        (mergeOrdinaryFiles runtime registries secondClock fromFirst second).home) ↔
      ¬ (runtime.size mine.content = runtime.size theirs.content ∧
        mine.mtimeMs = theirs.mtimeMs ∧ mine.content ≠ theirs.content) := by
  obtain ⟨⟨_, source⟩, member, rfl⟩ := List.mem_map.mp stagedSecond
  obtain rfl : source = theirs := Option.some.inj ((copySecond _ member).symm.trans secondHolds)
  obtain ⟨⟨path, copy⟩, memberCopy, samePath⟩ := List.mem_map.mp stagedFirst
  obtain rfl : path = _ := samePath
  have merged := mergeOrdinaryFiles_at runtime registries firstClock ordinary member first
  have mergedBack : ∀ copied, (mergeOrdinaryFiles runtime registries firstClock fromSecond
      first).home.files path = some copied → MergedAt runtime path copied second
        (mergeOrdinaryFiles runtime registries secondClock fromFirst second).home := by
    intro copied holds
    obtain rfl : copy = copied := Option.some.inj ((copyFirst _ memberCopy).symm.trans holds)
    exact mergeOrdinaryFiles_at runtime registries secondClock ordinary memberCopy second
  refine ⟨?_, fun condition => ?_⟩
  · rintro ⟨winner, agreed⟩ ⟨sizes, times, apart⟩
    exact not_agreed_of_sameStat firstHolds secondHolds merged mergedBack sizes times apart winner
      agreed
  by_cases same : mine.content = source.content
  · exact agreed_of_sameBytes firstHolds secondHolds merged mergedBack same
  have stats : ¬ (runtime.size mine.content = runtime.size source.content ∧
      mine.mtimeMs = source.mtimeMs) := fun both =>
    condition ⟨both.1, both.2, same⟩
  have different : filesEqual runtime source mine true = false :=
    filesEqual_false runtime (Ne.symm same) fun both => stats ⟨both.1.symm, both.2.symm⟩
  obtain wins | wins := (rank_ne runtime stats).lt_or_gt
  · exact ⟨source, agreed_of_theirsWins firstHolds secondHolds merged mergedBack firstWritable
      different wins⟩
  · exact ⟨mine, agreed_of_mineWins firstHolds secondHolds merged mergedBack secondWritable
      different (filesEqual_false runtime same stats) wins⟩

/-! ### Two settings files -/

namespace Settings

/-- The digests of the two contents below. -/
def digests : Runtime (List UInt8) where
  size := List.length
  sha256Hex content :=
    if content = [123, 125] then "44136fa355b3678a1146ad16f7e8649e94fb4fc21fe77e8310c060f61caaff8a"
    else "4f53cda18c2baa0c0354bb5f9a3ecbe5ed12ab4d8e11ba873c2f11161202b945"
  statDate mtimeMs := mtimeMs

/-- `{}`. -/
def braces (mtimeMs : ℚ) : SyncFile (List UInt8) := ⟨[123, 125], mtimeMs⟩

/-- `[]`. -/
def brackets (mtimeMs : ℚ) : SyncFile (List UInt8) := ⟨[91, 93], mtimeMs⟩

def path : String := ".claude/settings.json"

def homeWith (file : SyncFile (List UInt8)) : Home (List UInt8) where
  files rel := if rel = path then some file else none
  writable _ := true
  seen _ := []
  archive := []

def stagedWith (file : SyncFile (List UInt8)) : Staged (List UInt8) :=
  ⟨[(path, file)], List.nodup_cons.mpr ⟨List.not_mem_nil, List.nodup_nil⟩⟩

/-- The first host after it merged the second's copy, at a clock reading of 5 s. -/
def onFirst (mine theirs : SyncFile (List UInt8)) : Home (List UInt8) :=
  (mergeOrdinaryFiles digests [] (fun _ => 5000) (stagedWith theirs) (homeWith mine)).home

/-- The second host after it merged what the first then held. -/
def onSecond (theirs copied : SyncFile (List UInt8)) : Home (List UInt8) :=
  (mergeOrdinaryFiles digests [] (fun _ => 5000) (stagedWith copied) (homeWith theirs)).home

theorem copyOf (file : SyncFile (List UInt8)) (home : Home (List UInt8))
    (holds : home.files path = some file) :
    (stagedWith file).CopyOf home := by
  rintro entry member
  obtain rfl := List.mem_singleton.mp member
  exact holds

end Settings

open Settings in
/-- Two settings files of one size and one modification time stay different. -/
theorem mergeOrdinaryFiles_sameStat :
    ¬ ∃ winner, Agreed digests path (braces 1000) (brackets 1000) winner
      (homeWith (braces 1000)) (homeWith (brackets 1000))
      (onFirst (braces 1000) (brackets 1000))
      (onSecond (brackets 1000) (braces 1000)) := by
  rintro ⟨winner, agreed⟩
  have mine : some [123, 125] = some winner.content := agreed.onFirst
  have theirs : some [91, 93] = some winner.content := agreed.onSecond
  exact absurd (mine.trans theirs.symm) (by decide)

open Settings in
/-- The newer of two settings files reaches both hosts, and the older one is archived where it
was. -/
theorem mergeOrdinaryFiles_agree_newer :
    ∃ winner, Agreed digests path (braces 1000) (brackets 2000) winner
      (homeWith (braces 1000)) (homeWith (brackets 2000))
      (onFirst (braces 1000) (brackets 2000))
      (onSecond (brackets 2000) (brackets 2000)) := by
  have ordinary : isOrdinary [] path = true := by decide +kernel
  have firstHolds : (homeWith (braces 1000)).files path = some (braces 1000) := rfl
  have secondHolds : (homeWith (brackets 2000)).files path = some (brackets 2000) := rfl
  have copied : (onFirst (braces 1000) (brackets 2000)).files path = some (brackets 2000) := by
    decide +kernel
  have newer : ¬ (digests.size (braces 1000).content = digests.size (brackets 2000).content ∧
      (braces 1000).mtimeMs = (brackets 2000).mtimeMs ∧
      (braces 1000).content ≠ (brackets 2000).content) := by
    decide +kernel
  exact (mergeOrdinaryFiles_agree_iff digests [] ordinary firstHolds secondHolds rfl rfl
    (fun _ => 5000) (fun _ => 5000) (copyOf _ _ secondHolds) (copyOf _ _ copied)
    (List.mem_singleton_self _) (List.mem_singleton_self _)).mpr newer

end AiSwitcher.TreeMerge
