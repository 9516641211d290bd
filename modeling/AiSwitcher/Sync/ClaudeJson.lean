/-
This file embeds `mergeClaudeJson` of `src/sync/tree-merge.ts`: the newer of two
`.claude.json` files wins whole, the older one contributes the keys Claude Code rewrites
by itself that the newer one lacks, and it is archived when it held another value for a
key a person sets.

One merge leaves the destination with the reconciliation of the two objects. Reconciling
is idempotent, so two hosts that merge each other's files end with one object, provided
the merged file, whose modification time is a whole millisecond, still is the newer one.
-/

import AiSwitcher.Library.DeepEqual
import AiSwitcher.Sync.OrdinaryFiles
import Mathlib.Algebra.Order.Floor.Ring
import Mathlib.Data.Rat.Floor

namespace AiSwitcher.TreeMerge

open JavaScript JavaScript.Pattern

variable {Text : Type}

/-! ### Keys -/

/-- `SELF_CHANGING_CLAUDE_KEYS`. -/
def selfChangingClaudeKeys : Pattern :=
  oneOf
    [exactly "numStartups",
      all [exactly "tip", optional (exactly "s"), .character Char.isUpper, .many dot],
      exactly "tipsHistory", exactly "lastReleaseNotesSeen", exactly "promptQueueUseCount",
      exactly "firstStartTime", exactly "pluginUsage", exactly "changelogLastFetched",
      all [exactly "cached", .many dot], all [.many dot, exactly "Cache", .many dot]]

/-- `USER_CONFIG_CLAUDE_KEYS`. -/
def userConfigClaudeKeys : Pattern :=
  oneOf
    [exactly "mcpServers", exactly "projects", exactly "theme", exactly "editorMode",
      exactly "autoUpdates", exactly "verbose", exactly "env", exactly "permissions",
      exactly "preferredNotifChannel", exactly "customApiKeyResponses", exactly "primaryApiKey"]

/-- `/^last[A-Z]/.test(key)`. -/
def isSessionStat (key : String) : Bool :=
  startsWith key "last" && ((key.toList.drop 4).head?.any Char.isUpper)

/-- A value without the figures Claude Code stamps into the project entries. -/
def withoutSessionStats (key : String) (value : Option Json) : Option Json :=
  if key ≠ "projects" then value
  else
    match value with
    | some (.obj projects) =>
        some (.obj (projects.map fun project => (project.1,
          match project.2 with
          | .obj entry => .obj (entry.filter fun field => !isSessionStat field.1)
          | entry => entry)))
    | _ => value

/-! ### Merging two objects -/

/-- The keys for which the loser held another value that a person set. -/
def differingKeys (winner loser : Object) : List String :=
  (loser.entries.filter fun field =>
    !selfChangingClaudeKeys.test field.1 && userConfigClaudeKeys.test field.1 &&
      !isDeepStrictEqual (withoutSessionStats field.1 (some field.2))
        (withoutSessionStats field.1 (winner.get field.1))).map Prod.fst

/-- The winner with the self-changing keys that only the loser has. -/
def mergedClaude (winner loser : Object) : Object :=
  winner.spread (loser.entries.filter fun field =>
    selfChangingClaudeKeys.test field.1 && !winner.hasKey field.1)

/-! ### Merging two files -/

/-- What the merge takes from the runtime: `JSON.parse` of a text, and the text
`JSON.stringify` writes, which reads as the object that was written. -/
structure JsonRuntime (Text : Type) extends Runtime Text where
  parse : Text → Option Json
  stringify : Object → Text
  parse_stringify : ∀ object : Object,
    (parse (stringify object)).map Json.canonical = some (Json.obj object).asWritten

variable (runtime : JsonRuntime Text)

/-- The object a text holds, when it holds one. -/
def JsonRuntime.readObject (text : Text) : Option Object :=
  (runtime.parse text).bind Json.asObject?

/-- `new Date(ms)`, which drops the fraction. -/
def newDate (ms : ℚ) : ℚ :=
  if 0 ≤ ms then ⌊ms⌋ else ⌈ms⌉

/-- The loser is archived when it held another value that a person set, unless the ledger has
its digest. -/
def keepClaudeLoser (rel : String) (source destination : SyncFile Text) (incoming live : Object)
    (merge : Merge Text) : Merge Text :=
  let wins := sourceWins runtime.toRuntime source destination
  let differing := if wins then differingKeys incoming live else differingKeys live incoming
  let loser := if wins then destination else source
  let digest := runtime.sha256Hex loser.content
  let fresh := !differing.isEmpty && !(merge.home.seen rel).contains digest
  let side : Side := if wins then .local else .incoming
  (merge.keepLoser rel fresh digest side loser).countFresh rel fresh

/-- The merged object of two files. -/
def mergedObject (source destination : SyncFile Text) (incoming live : Object) : Object :=
  if sourceWins runtime.toRuntime source destination then mergedClaude incoming live
  else mergedClaude live incoming

/-- What is written over the destination: a copy of the source, nothing, or the merged object
under the later of the modification times. -/
def claudeFileToWrite (now : ℚ) (source destination : SyncFile Text)
    (incoming live merged : Object) : Option (SyncFile Text) :=
  if sourceWins runtime.toRuntime source destination &&
      isDeepStrictEqual (some (.obj merged)) (some (.obj incoming)) then
    some (copyKeepingMtime runtime.toRuntime now source)
  else if isDeepStrictEqual (some (.obj merged)) (some (.obj live)) then none
  else
    some ⟨runtime.stringify merged, newDate (max source.mtimeMs destination.mtimeMs)⟩

/-- The merge under the locks. -/
def mergeClaudeObjects (now : ℚ) (rel : String) (source destination : SyncFile Text)
    (incoming live : Object) (merge : Merge Text) : Merge Text :=
  let kept := keepClaudeLoser runtime rel source destination incoming live merge
  match claudeFileToWrite runtime now source destination incoming live
      (mergedObject runtime source destination incoming live) with
  | none => kept
  | some file => kept.tolerateDenied rel file id

/-- `none` when one of the files holds no object: it is then merged like any other file. The
locks of Claude Code are free; a busy session leaves its file for the next sync. -/
def mergeClaudeJson (now : ℚ) (rel : String) (source : SyncFile Text) (merge : Merge Text) :
    Option (Merge Text) := do
  let destination ← merge.home.files rel
  let incoming ← runtime.readObject source.content
  let live ← runtime.readObject destination.content
  some (mergeClaudeObjects runtime now rel source destination incoming live merge)

/-- A host after it merged another host's `.claude.json`, when it holds one. -/
def mergedFrom (now : ℚ) (rel : String) (home other : Home Text) : Home Text :=
  match other.files rel with
  | none => home
  | some source =>
      ((mergeClaudeJson runtime now rel source ⟨home, ⟨0, 0, [], []⟩⟩).map Merge.home).getD home

/-! ### Reconciling two objects -/

/-- What the keys of an object read once it was written. -/
def viewOf (object : Object) (key : String) : Option Json :=
  (object.get key).map Json.asWritten

/-- The winner has its own value at every key, the loser adds its self-changing keys. -/
def reconcile (winner loser : String → Option Json) (key : String) : Option Json :=
  (winner key).or (if selfChangingClaudeKeys.test key then loser key else none)

theorem reconcile_self (view : String → Option Json) : reconcile view view = view := by
  funext key
  unfold reconcile
  cases view key <;> simp

/-- A file that already is the reconciliation gains nothing from the loser. -/
theorem reconcile_reconcile_loser (winner loser : String → Option Json) :
    reconcile (reconcile winner loser) loser = reconcile winner loser := by
  funext key
  unfold reconcile
  cases winner key <;> cases selfChangingClaudeKeys.test key <;> simp

theorem reconcile_reconcile_winner (winner loser : String → Option Json) :
    reconcile (reconcile winner loser) winner = reconcile winner loser := by
  funext key
  unfold reconcile
  cases winner key <;> cases selfChangingClaudeKeys.test key <;> simp

theorem reconcile_winner_reconcile (winner loser : String → Option Json) :
    reconcile winner (reconcile winner loser) = reconcile winner loser := by
  funext key
  unfold reconcile
  cases winner key <;> cases selfChangingClaudeKeys.test key <;> simp

theorem get_mergedClaude (winner loser : Object) (key : String) :
    (mergedClaude winner loser).get key =
      (winner.get key).or (if selfChangingClaudeKeys.test key then loser.get key else none) := by
  rw [mergedClaude, Members.get_spread, Members.get_filter_keys _ fun name =>
    selfChangingClaudeKeys.test name && !winner.hasKey name, Members.get_entries,
    ← Members.isSome_get]
  cases winner.get key <;> cases selfChangingClaudeKeys.test key <;> simp

theorem viewOf_mergedClaude (winner loser : Object) :
    viewOf (mergedClaude winner loser) = reconcile (viewOf winner) (viewOf loser) := by
  funext key
  show ((mergedClaude winner loser).get key).map Json.asWritten = _
  rw [get_mergedClaude, Option.map_or, apply_ite (Option.map Json.asWritten), Option.map_none]
  rfl

/-- A loser without a key of its own adds nothing. -/
theorem mergedClaude_of_sameView {winner loser : Object} (same : viewOf winner = viewOf loser) :
    isDeepStrictEqual (some (.obj (mergedClaude winner loser))) (some (.obj winner)) = true := by
  refine decide_eq_true (congrArg some (Json.canonical_obj_eq_iff.mpr fun key => ?_))
  rw [get_mergedClaude]
  have reads : (viewOf winner key).isSome = (viewOf loser key).isSome := by rw [same]
  unfold viewOf at reads
  rw [Option.isSome_map, Option.isSome_map] at reads
  cases absent : winner.get key with
  | some value => rfl
  | none =>
    cases held : loser.get key with
    | some value => rw [absent, held] at reads; exact absurd reads Bool.false_ne_true
    | none => rw [ite_self]; rfl

theorem viewOf_eq_of_deepEqual {first second : Object}
    (equal : isDeepStrictEqual (some (.obj first)) (some (.obj second)) = true) :
    viewOf first = viewOf second := by
  have canonical := Option.some.inj (of_decide_eq_true equal)
  exact funext (Json.asWritten_obj_eq_iff.mp (Json.asWritten_of_canonical_eq canonical))

theorem readObject_stringify (object : Object) :
    ∃ read, runtime.readObject (runtime.stringify object) = some read ∧
      viewOf read = viewOf object := by
  obtain ⟨value, parsed, canonical⟩ :=
    Option.map_eq_some_iff.mp (runtime.parse_stringify object)
  have isObject : (Json.obj object).asWritten =
      .obj (Members.sorted ((object.map fun field => (field.1, field.2.written)).map
        fun field => (field.1, field.2.canonical))) := by
    rw [Json.asWritten, Json.written_obj, Json.canonical_obj]
  obtain ⟨read, rfl⟩ := Json.eq_obj_of_canonical_eq (canonical.trans isObject)
  refine ⟨read, by rw [JsonRuntime.readObject, parsed]; rfl, ?_⟩
  have same : (Json.obj read).asWritten = (Json.obj object).asWritten := by
    rw [← Json.asWritten_written (.obj object)]
    exact Json.asWritten_of_canonical_eq canonical
  exact funext (Json.asWritten_obj_eq_iff.mp same)

/-! ### One merge -/

/-- The host has a writable file at the path, and it holds the object. -/
structure Holds (rel : String) (home : Home Text) (file : SyncFile Text) (object : Object) :
    Prop where
  files : home.files rel = some file
  reads : runtime.readObject file.content = some object
  writable : home.writable rel = true

section OneMerge

variable {runtime} {rel : String} {home other : Home Text}
variable {source destination : SyncFile Text} {incoming live : Object} (now : ℚ)

theorem mergedFrom_eq (mine : Holds runtime rel home destination live)
    (theirs : Holds runtime rel other source incoming) :
    mergedFrom runtime now rel home other =
      (mergeClaudeObjects runtime now rel source destination incoming live
        ⟨home, ⟨0, 0, [], []⟩⟩).home := by
  simp only [mergedFrom, theirs.files, mergeClaudeJson, mine.files, theirs.reads, mine.reads,
    Option.bind_eq_bind, Option.bind_some, Option.map_some, Option.getD_some]

theorem viewOf_mergedObject (source destination : SyncFile Text) (incoming live : Object) :
    viewOf (mergedObject runtime source destination incoming live) =
      if sourceWins runtime.toRuntime source destination = true then
        reconcile (viewOf incoming) (viewOf live)
      else reconcile (viewOf live) (viewOf incoming) := by
  unfold mergedObject
  split
  · exact viewOf_mergedClaude incoming live
  · exact viewOf_mergedClaude live incoming

/-- The outcomes of a merge: a copy, nothing, or the merged object. The last one is left to
files that differ. -/
theorem claudeFileToWrite_cases (source destination : SyncFile Text) (incoming live : Object) :
    let merged := mergedObject runtime source destination incoming live
    let written := claudeFileToWrite runtime now source destination incoming live merged
    (written = some (copyKeepingMtime runtime.toRuntime now source) ∧
      sourceWins runtime.toRuntime source destination = true ∧ viewOf merged = viewOf incoming) ∨
    (written = none ∧ viewOf merged = viewOf live) ∨
    (written = some ⟨runtime.stringify merged, newDate (max source.mtimeMs destination.mtimeMs)⟩ ∧
      viewOf incoming ≠ viewOf live) := by
  intro merged written
  by_cases copies : (sourceWins runtime.toRuntime source destination &&
      isDeepStrictEqual (some (.obj merged)) (some (.obj incoming))) = true
  · have both := Bool.and_eq_true_iff.mp copies
    exact .inl ⟨if_pos copies, both.1, viewOf_eq_of_deepEqual both.2⟩
  by_cases stays : isDeepStrictEqual (some (.obj merged)) (some (.obj live)) = true
  · exact .inr (.inl ⟨(if_neg copies).trans (if_pos stays), viewOf_eq_of_deepEqual stays⟩)
  refine .inr (.inr ⟨(if_neg copies).trans (if_neg stays), fun same => ?_⟩)
  cases decided : sourceWins runtime.toRuntime source destination with
  | true =>
    have isIncoming : merged = mergedClaude incoming live := by
      unfold merged mergedObject
      rw [decided, if_pos rfl]
    rw [decided, isIncoming, mergedClaude_of_sameView same] at copies
    exact copies rfl
  | false =>
    have isLive : merged = mergedClaude live incoming := by
      unfold merged mergedObject
      rw [decided, if_neg Bool.false_ne_true]
    rw [isLive, mergedClaude_of_sameView same.symm] at stays
    exact stays rfl

theorem home_keepClaudeLoser (rel : String) (source destination : SyncFile Text)
    (incoming live : Object) (merge : Merge Text) :
    (keepClaudeLoser runtime rel source destination incoming live merge).home.files =
        merge.home.files ∧
      (keepClaudeLoser runtime rel source destination incoming live merge).home.writable =
        merge.home.writable := by
  unfold keepClaudeLoser
  dsimp only
  rw [home_countFresh, files_keepLoser, writable_keepLoser]
  exact ⟨rfl, rfl⟩

/-- A merge leaves what it wrote, or the destination. -/
theorem mergeClaudeObjects_files (source : SyncFile Text) (incoming live : Object)
    (merge : Merge Text)
    (holds : merge.home.files rel = some destination)
    (writable : merge.home.writable rel = true) :
    let after := (mergeClaudeObjects runtime now rel source destination incoming live merge).home
    after.files rel = some ((claudeFileToWrite runtime now source destination incoming live
        (mergedObject runtime source destination incoming live)).getD destination) ∧
      after.writable rel = true ∧
      (keepClaudeLoser runtime rel source destination incoming live merge).home.archive =
        after.archive := by
  have kept : (keepClaudeLoser runtime rel source destination incoming live merge).home.files =
      merge.home.files ∧ _ := home_keepClaudeLoser rel source destination incoming live merge
  unfold mergeClaudeObjects Merge.tolerateDenied
  cases claudeFileToWrite runtime now source destination incoming live
      (mergedObject runtime source destination incoming live) with
  | none => exact ⟨(congrFun kept.1 rel).trans holds, (congrFun kept.2 rel).trans writable, rfl⟩
  | some file =>
    have allowed : (keepClaudeLoser runtime rel source destination incoming live
        merge).home.writable rel = true := by rw [kept.2, writable]
    dsimp only
    rw [if_pos allowed]
    exact ⟨Function.update_self rel _ _, allowed, rfl⟩

/-- A merge leaves the reconciliation. Files with equal objects stay, or one is copied. -/
theorem mergedFrom_holds (mine : Holds runtime rel home destination live)
    (theirs : Holds runtime rel other source incoming) :
    ∃ file object, Holds runtime rel (mergedFrom runtime now rel home other) file object ∧
      (viewOf object = if sourceWins runtime.toRuntime source destination = true then
          reconcile (viewOf incoming) (viewOf live)
        else reconcile (viewOf live) (viewOf incoming)) ∧
      (sourceWins runtime.toRuntime source destination = false →
        file.mtimeMs = destination.mtimeMs ∨
          file.mtimeMs = newDate (max source.mtimeMs destination.mtimeMs)) ∧
      (viewOf incoming = viewOf live →
        file.content = source.content ∨ file.content = destination.content) := by
  rw [mergedFrom_eq now mine theirs, ← viewOf_mergedObject]
  obtain ⟨files, writable, -⟩ : _ = _ ∧ _ ∧ _ :=
    mergeClaudeObjects_files now source incoming live ⟨home, ⟨0, 0, [], []⟩⟩ mine.files
      mine.writable
  obtain ⟨written, wins, view⟩ | ⟨written, view⟩ | ⟨written, differ⟩ :=
    claudeFileToWrite_cases now source destination incoming live
  · rw [written] at files
    refine ⟨_, incoming, ⟨files, theirs.reads, writable⟩, view.symm, fun loses => ?_,
      fun _ => .inl rfl⟩
    exact absurd (wins.symm.trans loses) Bool.true_eq_false.mp
  · rw [written] at files
    exact ⟨_, live, ⟨files, mine.reads, writable⟩, view.symm, fun _ => .inl rfl,
      fun _ => .inr rfl⟩
  · rw [written] at files
    obtain ⟨object, reads, view⟩ := readObject_stringify runtime
      (mergedObject runtime source destination incoming live)
    exact ⟨_, object, ⟨files, reads, writable⟩, view, fun _ => .inr rfl,
      fun same => absurd same differ⟩

end OneMerge

/-! ### What is archived -/

/-- The loser held another value for a key that a person sets. -/
def DiffersForUser (winner loser : Object) : Prop :=
  ∃ key value, loser.get key = some value ∧ selfChangingClaudeKeys.test key = false ∧
    userConfigClaudeKeys.test key = true ∧
    isDeepStrictEqual (withoutSessionStats key (some value))
      (withoutSessionStats key (winner.get key)) = false

theorem differingKeys_isEmpty {winner loser : Object} (differs : DiffersForUser winner loser) :
    (differingKeys winner loser).isEmpty = false := by
  obtain ⟨key, value, held, notSelf, isUser, apart⟩ := differs
  have member : key ∈ differingKeys winner loser := by
    refine List.mem_map.mpr ⟨(key, value), List.mem_filter.mpr ⟨Members.mem_entries.mpr held, ?_⟩,
      rfl⟩
    simp only [notSelf, isUser, apart]
    rfl
  rw [List.isEmpty_eq_false_iff]
  exact List.ne_nil_of_mem member

section Archiving

variable {runtime} {rel : String} {home other : Home Text}
variable {source destination : SyncFile Text} {incoming live : Object} (now : ℚ)

theorem mergedFrom_archives (mine : Holds runtime rel home destination live)
    (theirs : Holds runtime rel other source incoming)
    (differs : if sourceWins runtime.toRuntime source destination = true then
        DiffersForUser incoming live
      else DiffersForUser live incoming) :
    Archived runtime.toRuntime rel home (mergedFrom runtime now rel home other)
      (if sourceWins runtime.toRuntime source destination = true then destination else source) := by
  rw [mergedFrom_eq now mine theirs]
  obtain ⟨-, -, archive⟩ : _ = _ ∧ _ ∧ _ :=
    mergeClaudeObjects_files now source incoming live ⟨home, ⟨0, 0, [], []⟩⟩ mine.files
      mine.writable
  have kept : Archived runtime.toRuntime rel home
      (keepClaudeLoser runtime rel source destination incoming live
        ⟨home, ⟨0, 0, [], []⟩⟩).home
      (if sourceWins runtime.toRuntime source destination = true then destination
        else source) := by
    unfold keepClaudeLoser
    dsimp only
    rw [home_countFresh]
    refine archived_keepLoser runtime.toRuntime rel _ _ ⟨home, ⟨0, 0, [], []⟩⟩ fun isNew => ?_
    have nonempty : (if sourceWins runtime.toRuntime source destination = true then
        differingKeys incoming live else differingKeys live incoming).isEmpty = false := by
      split at differs
      next wins => rw [if_pos wins]; exact differingKeys_isEmpty differs
      next loses => rw [if_neg loses]; exact differingKeys_isEmpty differs
    rw [nonempty, isNew]
    rfl
  exact kept.imp id fun ⟨side, member⟩ => ⟨side, archive ▸ member⟩

end Archiving

/-! ### Modification times -/

theorem newDate_int (ms : ℚ) : ∃ whole : ℤ, newDate ms = whole := by
  unfold newDate
  split
  · exact ⟨_, rfl⟩
  · exact ⟨_, rfl⟩

/-- A later whole millisecond is later than every time of an earlier one. -/
theorem lt_newDate {older newer : ℚ} (later : newDate older < newDate newer) :
    older < newDate newer := by
  obtain ⟨whole, isWhole⟩ := newDate_int newer
  rw [isWhole] at later ⊢
  unfold newDate at later
  split at later
  · exact Int.floor_lt.mp (Int.cast_lt.mp later)
  · exact (Int.le_ceil older).trans_lt later

theorem newDate_mono {first second : ℚ} (le : first ≤ second) : newDate first ≤ newDate second := by
  unfold newDate
  split <;> split
  · exact Int.cast_le.mpr (Int.floor_le_floor le)
  next nonneg negative => exact absurd (nonneg.trans le) negative
  next negative nonneg =>
    have below : ⌈first⌉ ≤ 0 := Int.ceil_le.mpr (by simpa using (not_le.mp negative).le)
    exact Int.cast_le.mpr (below.trans (Int.floor_nonneg.mpr nonneg))
  · exact Int.cast_le.mpr (Int.ceil_le_ceil le)

theorem lt_of_newDate_lt {older newer : ℚ} (later : newDate older < newDate newer) :
    older < newer :=
  not_le.mp fun le => (newDate_mono le).not_gt later

theorem sourceWins_of_newer (choice : Runtime Text) {source destination : SyncFile Text}
    (newer : destination.mtimeMs < source.mtimeMs) :
    sourceWins choice source destination = true :=
  (sourceWins_iff choice source destination).mpr (Prod.Lex.toLex_lt_toLex.mpr (.inl newer))

theorem sourceWins_of_older (choice : Runtime Text) {source destination : SyncFile Text}
    (older : source.mtimeMs < destination.mtimeMs) :
    sourceWins choice source destination = false := by
  rw [← Bool.not_eq_true, sourceWins_iff]
  exact (Prod.Lex.toLex_lt_toLex.mpr (.inl older)).not_gt

/-! ### Two hosts -/

section TwoHosts

variable {runtime} {rel : String} {first second : Home Text} {mine theirs : SyncFile Text}
variable {own other : Object} (now : ℚ)

/-- What the hosts agree on: the other host's version wins, or the own one. -/
def agreedView (theirsWin : Bool) (own other : Object) : String → Option Json :=
  if theirsWin then reconcile (viewOf other) (viewOf own)
  else reconcile (viewOf own) (viewOf other)

/-- On the way back the other host ends with the same object, be it the winner or not. -/
theorem secondMerge_holds (holdsTheirs : Holds runtime rel second theirs other) {theirsWin : Bool}
    {merged : Home Text} {file : SyncFile Text} {object : Object}
    (holds : Holds runtime rel merged file object)
    (view : viewOf object = agreedView theirsWin own other)
    (newest : theirsWin = false → theirs.mtimeMs < file.mtimeMs) :
    ∃ file' object', Holds runtime rel (mergedFrom runtime now rel second merged) file' object' ∧
      viewOf object' = agreedView theirsWin own other := by
  obtain ⟨file', object', holds', view', -⟩ := mergedFrom_holds now holdsTheirs holds
  refine ⟨file', object', holds', view'.trans ?_⟩
  rw [view]
  cases theirsWin with
  | true =>
    show (if _ then reconcile (reconcile _ _) _ else reconcile _ (reconcile _ _)) = reconcile _ _
    rw [reconcile_reconcile_winner, reconcile_winner_reconcile, ite_self]
  | false =>
    rw [sourceWins_of_newer runtime.toRuntime (newest rfl), if_pos rfl]
    exact reconcile_reconcile_loser _ _

/-- A host that holds the same object as the other keeps it, and at most copies the other's
file. -/
theorem thirdMerge_holds {object object' : Object} (holdsMine : Holds runtime rel first mine object)
    (holdsTheirs : Holds runtime rel second theirs object')
    (same : viewOf object' = viewOf object) :
    ∃ file object'', Holds runtime rel (mergedFrom runtime now rel first second) file object'' ∧
      viewOf object'' = viewOf object ∧
      (file.content = mine.content ∨ file.content = theirs.content) := by
  obtain ⟨file, object'', holds, view, -, copies⟩ := mergedFrom_holds now holdsMine holdsTheirs
  rw [same, reconcile_self, ite_self] at view
  exact ⟨file, object'', holds, view, (copies same).symm⟩

/-- When the first host's version wins and is merged, the merged file still is the newer one. -/
theorem lt_mtimeMs_of_keeps {file : SyncFile Text}
    (later : newDate theirs.mtimeMs < newDate mine.mtimeMs)
    (time : file.mtimeMs = mine.mtimeMs ∨
      file.mtimeMs = newDate (max theirs.mtimeMs mine.mtimeMs)) :
    theirs.mtimeMs < file.mtimeMs := by
  have times := lt_of_newDate_lt later
  obtain same | whole := time
  · rw [same]; exact times
  · rw [whole, max_eq_right times.le]; exact lt_newDate later

end TwoHosts

namespace ClaudeIdentity

/-- A text that was there before, or one the merge has printed. -/
inductive ClaudeText where
  | typed (text : String)
  | printed (object : Object)
  deriving DecidableEq

def started (theme : String) : Object :=
  [("theme", .str theme), ("numStartups", .num (.finite 5))]

/-- What the three texts below hold. -/
def parseTyped (text : String) : Option Json :=
  if text = "\x7b\"theme\":\"dark\"\x7d" then some (.obj [("theme", .str "dark")])
  else if text = "\x7b\"theme\":\"light\",\"numStartups\":5\x7d" then some (.obj (started "light"))
  else if text = "\x7b\"theme\":\"dark\",\"numStartups\":5\x7d" then some (.obj (started "dark"))
  else none

/-- The size and the digest of a printed text are those of the one object that is printed
here: the theme and the number of startups on a line each. -/
def texts : JsonRuntime ClaudeText where
  size
    | .typed text => text.length
    | .printed _ => 42
  sha256Hex
    | .typed text =>
        if text = "\x7b\"theme\":\"dark\"\x7d" then
          "0f4f87db4567232a7f1756aa1534ec1314777b39c3bf5209f87cf9739321cddc"
        else if text = "\x7b\"theme\":\"light\",\"numStartups\":5\x7d" then
          "d85ce9dc885a60babc908143fe8b52cd6f41723bb431c34e661f1f662c7c2287"
        else "196d6ebe9fa4706194bc426315c44924c6773f8d7d1077c00aac9a6864e5ccc6"
    | .printed _ => "94180aec91c2e7bb0f4b1b8b1179b36616b02bc5e1bd7713fec73e815e9366ae"
  statDate := newDate
  parse
    | .typed text => parseTyped text
    | .printed object => some (Json.obj object).written
  stringify := .printed
  parse_stringify _ := rfl

def dark : SyncFile ClaudeText := ⟨.typed "\x7b\"theme\":\"dark\"\x7d", 2000⟩

def light : SyncFile ClaudeText := ⟨.typed "\x7b\"theme\":\"light\",\"numStartups\":5\x7d", 1000⟩

def darkStarted : SyncFile ClaudeText := ⟨.typed "\x7b\"theme\":\"dark\",\"numStartups\":5\x7d", 1000⟩

def path : String := ".claude/identities/work/.claude.json"

def homeWith (file : SyncFile ClaudeText) : Home ClaudeText where
  files rel := if rel = path then some file else none
  writable _ := true
  seen _ := []
  archive := []

end ClaudeIdentity

end AiSwitcher.TreeMerge
