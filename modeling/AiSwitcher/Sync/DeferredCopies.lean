/-
This file models the archive of histories that could not be merged, in
`src/sync/tree-merge.ts`, and proves that it never loses one. For a path there is one
deferred copy, replaced by every newer one, and an unresolved archive per content
for the copies that the newer one does not contain.

A disk may fail any operation. A rename is in the directory at once but only a flush of the
directories makes it last: until then a crash leaves the one or the other entry. The bytes
of a file that was renamed without being flushed may be cut short by a crash.
-/

import AiSwitcher.Library.Interrupted
import AiSwitcher.Library.Utf8
import AiSwitcher.Sync.Dedupe

namespace AiSwitcher.TreeMerge.Deferred

open Interrupted Utf8

/-! ### Which copies a newer one contains -/

variable {Line : Type} [DecidableEq Line]

/-- The loop that takes the records of the older copy out of the newer one's. -/
def takeRecords (counts : Counts Line) : List Line → Bool
  | [] => true
  | line :: rest =>
      if counts line = 0 then false
      else takeRecords (Function.update counts line (counts line - 1)) rest

def subsumesJsonl (newer older : Bytes) : Bool :=
  if older.isPrefixOf newer then true
  else if older.getLast? ≠ some newline then false
  else takeRecords (multiset (Lines.records newline newer)) (Lines.records newline older)

theorem count_le_of_takeRecords {lines : List Line} {counts : Counts Line}
    (taken : takeRecords counts lines = true) (line : Line) : lines.count line ≤ counts line := by
  induction lines generalizing counts with
  | nil => exact Nat.zero_le _
  | cons head rest inductionHypothesis =>
    rw [takeRecords] at taken
    split at taken
    · exact absurd taken Bool.false_ne_true
    · have counted := inductionHypothesis taken
      rw [List.count_cons]
      by_cases same : head = line
      · subst same
        rw [Function.update_self] at counted
        simp only [BEq.rfl, if_true]
        omega
      · rw [Function.update_of_ne (Ne.symm same)] at counted
        simpa [same] using counted

theorem subperm_of_takeRecords {newer older : List Line}
    (taken : takeRecords (multiset newer) older = true) : List.Subperm older newer := by
  refine List.subperm_ext_iff.mpr fun line _ => ?_
  rw [← multiset_eq_count newer]
  exact count_le_of_takeRecords taken line

/-- Whichever test a newer copy passes, it keeps everything of the older one. -/
theorem retains_of_subsumesJsonl {newer older : Bytes} (subsumes : subsumesJsonl newer older = true) :
    Lines.Retains newline newer older := by
  unfold subsumesJsonl at subsumes
  split at subsumes
  · rename_i continues
    exact .of_continued (List.isPrefixOf_iff_prefix.mp continues)
  · split at subsumes
    · exact absurd subsumes Bool.false_ne_true
    · rename_i ends
      exact .of_finished (not_not.mp ends) (subperm_of_takeRecords subsumes)

/-! ### The archive of one path -/

/-- Where a copy of the path may lie. -/
inductive Place (Hash : Type) where
  | deferred
  | unresolved (hash : Hash)
  deriving DecidableEq

/-- A file being written, and whether its bytes were flushed. -/
structure Temporary where
  bytes : Bytes
  flushed : Bool

/-- What a crash may leave of a file. -/
def Temporary.afterCrash (temporary : Temporary) : List Bytes :=
  if temporary.flushed then [temporary.bytes] else temporary.bytes.inits

/-- What a place shows and what a crash may leave there. -/
structure Entry where
  visible : Option Bytes
  left : List (Option Bytes)

/-- A file takes the place, durably only once the directories are flushed. -/
def Entry.renamed (entry : Entry) (file : Temporary) : Entry where
  visible := some file.bytes
  left := file.afterCrash.map some ++ entry.left

def Entry.flushed (entry : Entry) : Entry := { entry with left := [entry.visible] }

abbrev Entries (Hash : Type) := Place Hash → Entry

/-- The entries with the files that are being written next to them. -/
structure Archive (Hash : Type) where
  entries : Entries Hash
  temporaries : Place Hash → Option Temporary

inductive IoError where
  | failed
  deriving DecidableEq

/-- What the program does to the disk. -/
inductive DiskAction (Hash : Type) : Type → Type where
  | exists (place : Place Hash) : DiskAction Hash Bool
  | readFile (place : Place Hash) : DiskAction Hash (Except IoError Bytes)
  | syncFile (place : Place Hash) : DiskAction Hash (Except IoError Unit)
  | openTemporary (place : Place Hash) : DiskAction Hash (Except IoError Unit)
  | writeTemporary (place : Place Hash) (bytes : Bytes) : DiskAction Hash (Except IoError Unit)
  | syncTemporary (place : Place Hash) : DiskAction Hash (Except IoError Unit)
  | rename (place : Place Hash) : DiskAction Hash (Except IoError Unit)
  | syncArchiveDirectories (place : Place Hash) : DiskAction Hash (Except IoError Unit)

abbrev DiskProgram (Hash : Type) := Program (DiskAction Hash) IoError

variable {Hash : Type} [DecidableEq Hash] (digest : Bytes → Hash)

def writeDurableArchive (destination : Place Hash) (bytes : Bytes) : DiskProgram Hash Unit := do
  .attempt (.openTemporary destination)
  .attempt (.writeTemporary destination bytes)
  .attempt (.syncTemporary destination)
  .attempt (.rename destination)
  .attempt (.syncArchiveDirectories destination)

/-- An identical copy is there: its durability is reconfirmed. -/
def reconfirm : DiskProgram Hash Bool := do
  .attempt (.syncFile .deferred)
  .attempt (.syncArchiveDirectories .deferred)
  return false

def replaceDeferred (incoming : Bytes) : DiskProgram Hash Bool := do
  writeDurableArchive .deferred incoming
  return true

/-- Another copy is there. -/
def supersede (incoming previous : Bytes) : DiskProgram Hash Bool :=
  if subsumesJsonl incoming previous then replaceDeferred incoming
  else do
    writeDurableArchive (.unresolved (digest previous)) previous
    replaceDeferred incoming

/-- Archive a copy; `false` when an identical one was there. -/
def preserveDeferredFile (incoming : Bytes) : DiskProgram Hash Bool := do
  if ← .perform (.exists .deferred) then
    let previous ← .attempt (.readFile .deferred)
    if incoming = previous then reconfirm else supersede digest incoming previous
  else replaceDeferred incoming

/-! ### The disk -/

def Archive.writing (archive : Archive Hash) (place : Place Hash) (file : Option Temporary) :
    Archive Hash :=
  { archive with temporaries := Function.update archive.temporaries place file }

def Archive.renamed (archive : Archive Hash) (place : Place Hash) (file : Temporary) :
    Archive Hash where
  entries := Function.update archive.entries place ((archive.entries place).renamed file)
  temporaries := Function.update archive.temporaries place none

def Archive.flushed (archive : Archive Hash) (place : Place Hash) : Archive Hash :=
  { archive with
    entries := Function.update archive.entries place (archive.entries place).flushed }

/-- The answers to an action and what becomes of the disk. A write that fails may have written
anything; a rename or a flush that fails may have been done. -/
def diskBehaves : Behaviour (DiskAction Hash) (Archive Hash)
  | _, .exists place, before, answer, after =>
      after = before ∧ answer = (before.entries place).visible.isSome
  | _, .readFile place, before, answer, after =>
      after = before ∧ ∀ bytes, answer = .ok bytes → (before.entries place).visible = some bytes
  | _, .syncFile _, before, _, after => after = before
  | _, .openTemporary place, before, answer, after => ∃ file,
      after = before.writing place file ∧ (answer = .ok () → file = some ⟨[], false⟩)
  | _, .writeTemporary place bytes, before, answer, after => ∃ file,
      after = before.writing place file ∧ (answer = .ok () → file = some ⟨bytes, false⟩)
  | _, .syncTemporary place, before, answer, after => ∃ file,
      before.temporaries place = some file ∧
        after = before.writing place (some ⟨file.bytes, answer.toBool⟩)
  | _, .rename place, before, answer, after => ∃ file,
      before.temporaries place = some file ∧
        Program.Writes before (before.renamed place file) () answer after
  | _, .syncArchiveDirectories place, before, answer, after =>
      Program.Writes before (before.flushed place) () answer after

/-- After a crash a place has one of the entries that it may leave, and that one is durable. -/
def Entries.Crashed (before after : Entries Hash) : Prop :=
  ∀ place, (after place).visible ∈ (before place).left ∧
    (after place).left = [(after place).visible]

/-! ### Runs -/

/-- The disk with the copies that calls were made for and those whose call has returned. -/
structure History (Hash : Type) where
  archive : Archive Hash
  called : List Bytes
  returned : List Bytes

/-- The copies of calls that have returned. -/
def returnedBy (incoming : Bytes) : Option (Except IoError Bool) → List Bytes
  | some (.ok _) => [incoming]
  | some (.error _) | none => []

/-- A call that returns, fails or is cut off, or a crash. -/
inductive Step : History Hash → History Hash → Prop
  | call {history incoming outcome archive}
      (reaches : (preserveDeferredFile digest incoming).Reaches diskBehaves history.archive outcome
        archive) :
      Step history ⟨archive, incoming :: history.called, returnedBy incoming outcome ++ history.returned⟩
  | crash {history : History Hash} {archive : Archive Hash}
      (crashed : history.archive.entries.Crashed archive.entries) :
      Step history { history with archive }

def History.initial : History Hash := ⟨⟨fun _ => ⟨none, [none]⟩, fun _ => none⟩, [], []⟩

inductive Reachable : History Hash → Prop
  | initial : Reachable .initial
  | step {before after} (reachable : Reachable before) (step : Step digest before after) :
      Reachable after

/-! ### What the archive keeps -/

/-- Whatever a crash leaves at the place has all of the copy. -/
def Entries.KeptAt (entries : Entries Hash) (copy : Bytes) (place : Place Hash) : Prop :=
  ∀ version ∈ (entries place).left, ∃ file, version = some file ∧ Lines.Retains newline file copy

def Entries.Kept (entries : Entries Hash) (copy : Bytes) : Prop :=
  ∃ place, entries.KeptAt copy place

/-- What is shown may be left, and only copies are, each unresolved one under its digest. -/
structure Entries.Sound (called : List Bytes) (entries : Entries Hash) : Prop where
  shown : ∀ place, (entries place).visible ∈ (entries place).left
  copies : ∀ place file, some file ∈ (entries place).left → file ∈ called
  named : ∀ hash file, some file ∈ (entries (.unresolved hash)).left → digest file = hash

variable {digest}

omit [DecidableEq Hash] in
theorem Entries.KeptAt.visible {entries : Entries Hash} {called : List Bytes} {copy : Bytes}
    {place : Place Hash} (kept : entries.KeptAt copy place) (sound : entries.Sound digest called) :
    ∃ file, (entries place).visible = some file ∧ Lines.Retains newline file copy :=
  kept _ (sound.shown place)

/-- A step of the disk that loses nothing. -/
def Entries.Keeps (digest : Bytes → Hash) (called : List Bytes) (before after : Entries Hash) :
    Prop :=
  before.Sound digest called →
    after.Sound digest called ∧ ∀ copy, before.Kept copy → after.Kept copy

variable {called : List Bytes} {entries : Entries Hash}

omit [DecidableEq Hash] in
theorem Entries.Keeps.refl : entries.Keeps digest called entries :=
  fun sound => ⟨sound, fun _ kept => kept⟩

omit [DecidableEq Hash] in
theorem Entries.Keeps.trans {before between after : Entries Hash}
    (first : before.Keeps digest called between) (second : between.Keeps digest called after) :
    before.Keeps digest called after := by
  intro sound
  obtain ⟨soundBetween, keptBetween⟩ := first sound
  obtain ⟨soundAfter, keptAfter⟩ := second soundBetween
  exact ⟨soundAfter, fun copy kept => keptAfter copy (keptBetween copy kept)⟩

/-- A change of one place that leaves there what was shown. -/
theorem keeps_flushed (place : Place Hash) :
    entries.Keeps digest called (Function.update entries place (entries place).flushed) := by
  intro sound
  have fewer : ∀ other version,
      version ∈ (Function.update entries place (entries place).flushed other).left →
        version ∈ (entries other).left := by
    intro other version member
    by_cases same : other = place
    · subst same
      rw [Function.update_self, Entry.flushed, List.mem_singleton] at member
      rw [member]
      exact sound.shown other
    · rwa [Function.update_of_ne same] at member
  refine ⟨⟨fun other => ?_, fun other file member => sound.copies other file (fewer _ _ member),
    fun hash file member => sound.named hash file (fewer _ _ member)⟩, ?_⟩
  · by_cases same : other = place
    · subst same
      rw [Function.update_self]
      exact List.mem_singleton_self _
    · rw [Function.update_of_ne same]
      exact sound.shown other
  · rintro copy ⟨other, kept⟩
    exact ⟨other, fun version member => kept version (fewer _ _ member)⟩

/-- A copy takes a place where everything kept is in the copy, or kept elsewhere. -/
theorem keeps_renamed {place : Place Hash} {bytes : Bytes} (member : bytes ∈ called)
    (named : ∀ hash, place = .unresolved hash → digest bytes = hash)
    (covered : entries.Sound digest called → ∀ copy, entries.KeptAt copy place →
      Lines.Retains newline bytes copy ∨ ∃ other, other ≠ place ∧ entries.KeptAt copy other) :
    entries.Keeps digest called
      (Function.update entries place ((entries place).renamed ⟨bytes, true⟩)) := by
  intro sound
  have versions : ∀ other version,
      version ∈ (Function.update entries place
        ((entries place).renamed ⟨bytes, true⟩) other).left →
        (other = place ∧ version = some bytes) ∨ version ∈ (entries other).left := by
    intro other version member
    by_cases same : other = place
    · subst same
      rw [Function.update_self, Entry.renamed, Temporary.afterCrash, if_pos rfl] at member
      exact (List.mem_cons.mp member).imp_left fun new => ⟨rfl, new⟩
    · rw [Function.update_of_ne same] at member
      exact .inr member
  refine ⟨⟨fun other => ?_, fun other file present => ?_, fun hash file present => ?_⟩, ?_⟩
  · by_cases same : other = place
    · subst same
      rw [Function.update_self]
      exact List.mem_cons_self
    · rw [Function.update_of_ne same]
      exact sound.shown other
  · obtain ⟨-, new⟩ | old := versions _ _ present
    · rwa [Option.some.inj new]
    · exact sound.copies other file old
  · obtain ⟨here, new⟩ | old := versions _ _ present
    · rw [Option.some.inj new]
      exact named hash here.symm
    · exact sound.named hash file old
  · rintro copy ⟨other, kept⟩
    by_cases same : other = place
    · subst same
      obtain retains | ⟨elsewhere, different, kept⟩ := covered sound copy kept
      · refine ⟨other, fun version present => ?_⟩
        obtain ⟨-, new⟩ | old := versions _ _ present
        · exact ⟨bytes, new, retains⟩
        · exact kept version old
      · refine ⟨elsewhere, fun version present => ?_⟩
        rw [Function.update_of_ne different] at present
        exact kept version present
    · refine ⟨other, fun version present => ?_⟩
      rw [Function.update_of_ne same] at present
      exact kept version present

/-! ### The calls -/

/-- What an action may do to the entries. -/
def Guarantee (digest : Bytes → Hash) (called : List Bytes) (before after : Archive Hash) : Prop :=
  before.entries.Keeps digest called after.entries

/-- The copy has durably taken the place. -/
def Entries.written (entries : Entries Hash) (place : Place Hash) (bytes : Bytes) : Entries Hash :=
  Function.update entries place ⟨some bytes, [some bytes]⟩

/-- A call that returned has stored the copy. -/
def Stores (copy : Bytes) (outcome : Except IoError Bool) (archive : Archive Hash) : Prop :=
  ∀ result, outcome = .ok result → archive.entries.Kept copy

def Wrote (entries : Entries Hash) (outcome : Except IoError Unit) (archive : Archive Hash) :
    Prop :=
  outcome = .ok () → archive.entries = entries

variable {archive : Archive Hash} {post : Except IoError Unit → Archive Hash → Prop}

@[simp] theorem Archive.writing_temporaries (archive : Archive Hash) (place : Place Hash)
    (file : Option Temporary) : (archive.writing place file).temporaries place = file :=
  Function.update_self ..

/-- A rename that has not failed before it was done. -/
theorem renamed_cases {place : Place Hash} {archive after : Archive Hash} {file : Temporary}
    {answer : Except IoError Unit} (written : archive.temporaries place = some file)
    (answers : diskBehaves _ (.rename place) archive answer after) :
    after.entries = Function.update archive.entries place ((archive.entries place).renamed file) ∨
      (after.entries = archive.entries ∧ answer ≠ .ok ()) := by
  obtain ⟨other, isThere, ⟨rfl, -⟩ | ⟨rfl, failed⟩⟩ := answers
  · rw [written] at isThere
    rw [Option.some.inj isThere]
    exact .inl rfl
  · exact .inr ⟨rfl, failed⟩

theorem safe_flush {place : Place Hash} {archive : Archive Hash} :
    (Program.attempt (.syncArchiveDirectories place) : DiskProgram Hash Unit).safe diskBehaves
      (Guarantee digest called)
      (Wrote (Function.update archive.entries place (archive.entries place).flushed)) archive := by
  rintro answer after (⟨rfl, -⟩ | ⟨rfl, failed⟩)
  · exact ⟨keeps_flushed place, Program.safe_ofExcept fun _ => rfl⟩
  · exact ⟨.refl, Program.safe_ofExcept fun ok => absurd ok failed⟩

/-- An action on the file next to a place keeps all entries. -/
theorem safe_writing_bind {action : DiskAction Hash (Except IoError Unit)}
    {next : Unit → DiskProgram Hash Unit} {archive : Archive Hash} {goal : Entries Hash}
    (place : Place Hash) (file : Option Temporary)
    (touches : ∀ answer after, diskBehaves _ action archive answer after →
      ∃ written, after = archive.writing place written ∧ (answer = .ok () → written = file))
    (goesOn : (next ()).safe diskBehaves (Guarantee digest called) (Wrote goal)
      (archive.writing place file)) :
    (Program.attempt action >>= next).safe diskBehaves (Guarantee digest called) (Wrote goal)
      archive := by
  refine Program.safe_attempt_bind (fun result after answers => ?_) fun error after answers => ?_
  · obtain ⟨written, rfl, whole⟩ := touches _ _ answers
    rw [whole rfl]
    exact ⟨.refl, goesOn⟩
  · obtain ⟨written, rfl, -⟩ := touches _ _ answers
    exact ⟨.refl, nofun⟩

/-- The temporary file is complete and flushed when it takes the place, so the copy is there,
and lasts, when the call returns. -/
theorem safe_writeDurableArchive {place : Place Hash} {bytes : Bytes} {archive : Archive Hash}
    (keeps : archive.entries.Keeps digest called
      (Function.update archive.entries place ((archive.entries place).renamed ⟨bytes, true⟩))) :
    (writeDurableArchive place bytes).safe diskBehaves (Guarantee digest called)
      (Wrote (archive.entries.written place bytes)) archive := by
  refine safe_writing_bind place (some ⟨[], false⟩) (fun answer after opens => opens) ?_
  refine safe_writing_bind place (some ⟨bytes, false⟩) (fun answer after writes => writes) ?_
  refine safe_writing_bind place (some ⟨bytes, true⟩) (fun answer after syncs => ?_) ?_
  · obtain ⟨file, isThere, rfl⟩ := syncs
    rw [Archive.writing_temporaries] at isThere
    refine ⟨_, rfl, fun ok => ?_⟩
    rw [← Option.some.inj isThere, ok]
    rfl
  refine Program.safe_attempt_bind (fun _ renamed answers => ?_) fun error renamed answers => ?_
  · obtain replaced | ⟨-, failed⟩ := renamed_cases (Archive.writing_temporaries ..) answers
    · refine ⟨?_, Program.safe_mono ?_ _ _ safe_flush⟩
      · rw [Guarantee, replaced]
        exact keeps
      · intro outcome after wrote ok
        rw [wrote ok, replaced, Function.update_idem, Function.update_self]
        rfl
    · exact absurd rfl failed
  · refine ⟨?_, nofun⟩
    obtain replaced | ⟨same, -⟩ := renamed_cases (Archive.writing_temporaries ..) answers
    · rw [Guarantee, replaced]
      exact keeps
    · rw [Guarantee, same]
      exact .refl

theorem kept_written (place : Place Hash) (bytes : Bytes) :
    (entries.written place bytes).KeptAt bytes place := by
  intro version member
  rw [Entries.written, Function.update_self, List.mem_singleton] at member
  exact ⟨bytes, member, .refl bytes⟩

theorem safe_replaceDeferred {incoming : Bytes} {archive : Archive Hash}
    (keeps : archive.entries.Keeps digest called (Function.update archive.entries .deferred
      ((archive.entries .deferred).renamed ⟨incoming, true⟩))) :
    (replaceDeferred incoming).safe diskBehaves (Guarantee digest called) (Stores incoming)
      archive := by
  refine Program.safe_bind _ _ (Program.safe_mono ?_ _ _ (safe_writeDurableArchive keeps))
  intro outcome after wrote
  cases outcome with
  | ok result =>
    intro _ _
    rw [wrote rfl]
    exact ⟨.deferred, kept_written .deferred incoming⟩
  | error error => exact nofun

section Calls

variable {archive : Archive Hash} {incoming previous : Bytes}
  (shows : (archive.entries .deferred).visible = some previous)

include shows

theorem safe_reconfirm :
    (reconfirm : DiskProgram Hash Bool).safe diskBehaves (Guarantee digest called)
      (Stores previous) archive := by
  refine Program.safe_attempt_bind (fun _ after synced => ?_) fun error after synced => ?_
  · obtain rfl : archive = after := synced.symm
    refine ⟨.refl, Program.safe_bind _ _ (Program.safe_mono ?_ _ _ safe_flush)⟩
    intro outcome after wrote
    cases outcome with
    | ok result =>
      intro _ _
      rw [wrote rfl, Entry.flushed, shows]
      refine ⟨.deferred, fun version member => ?_⟩
      rw [Function.update_self, List.mem_singleton] at member
      exact ⟨previous, member, .refl previous⟩
    | error error => exact nofun
  · obtain rfl : archive = after := synced.symm
    exact ⟨.refl, nofun⟩

/-- What is kept in the deferred copy is kept in the copy that contains it. -/
theorem keeps_subsumed (member : incoming ∈ called)
    (subsumes : subsumesJsonl incoming previous = true) :
    archive.entries.Keeps digest called (Function.update archive.entries .deferred
      ((archive.entries .deferred).renamed ⟨incoming, true⟩)) := by
  refine keeps_renamed member nofun fun sound copy kept => .inl ?_
  obtain ⟨file, visible, retains⟩ := kept.visible sound
  obtain rfl : previous = file := Option.some.inj (shows.symm.trans visible)
  exact (retains_of_subsumesJsonl subsumes).trans retains

/-- The deferred copy takes its place among the unresolved ones: what is there already has the
same digest, so is the same copy. -/
theorem keeps_unresolved (sound : archive.entries.Sound digest called)
    (distinct : Set.InjOn digest {copy | copy ∈ called}) :
    archive.entries.Keeps digest called
      (Function.update archive.entries (.unresolved (digest previous))
        ((archive.entries (.unresolved (digest previous))).renamed ⟨previous, true⟩)) := by
  have isCopy : previous ∈ called := by
    refine sound.copies .deferred previous ?_
    rw [← shows]
    exact sound.shown .deferred
  refine keeps_renamed isCopy (fun hash same => Place.unresolved.inj same) fun _ copy kept => .inl ?_
  obtain ⟨file, visible, retains⟩ := kept.visible sound
  have left : some file ∈ (archive.entries (.unresolved (digest previous))).left := by
    rw [← visible]
    exact sound.shown _
  have same : file = previous := distinct (sound.copies _ file left) isCopy
    (sound.named _ file left)
  rwa [same] at retains

/-- Once the deferred copy is among the unresolved ones any copy may replace it. -/
theorem keeps_replaced (member : incoming ∈ called) :
    (archive.entries.written (.unresolved (digest previous)) previous).Keeps digest called
      (Function.update (archive.entries.written (.unresolved (digest previous)) previous) .deferred
        ((archive.entries.written (.unresolved (digest previous)) previous .deferred).renamed
          ⟨incoming, true⟩)) := by
  have different : (Place.deferred : Place Hash) ≠ .unresolved (digest previous) := nofun
  refine keeps_renamed member nofun fun sound copy kept => .inr ?_
  obtain ⟨file, visible, retains⟩ := kept.visible sound
  rw [Entries.written, Function.update_of_ne different, shows, Option.some.injEq] at visible
  subst visible
  refine ⟨.unresolved (digest previous), different.symm, fun version present => ?_⟩
  obtain ⟨file, isFile, whole⟩ := kept_written _ previous version present
  exact ⟨file, isFile, whole.trans retains⟩

theorem safe_supersede (sound : archive.entries.Sound digest called)
    (distinct : Set.InjOn digest {copy | copy ∈ called}) (member : incoming ∈ called) :
    (supersede digest incoming previous).safe diskBehaves (Guarantee digest called)
      (Stores incoming) archive := by
  unfold supersede
  split
  · rename_i subsumes
    exact safe_replaceDeferred (keeps_subsumed shows member subsumes)
  · refine Program.safe_bind _ _ (Program.safe_mono ?_ _ _
      (safe_writeDurableArchive (keeps_unresolved shows sound distinct)))
    intro outcome after wrote
    cases outcome with
    | ok result =>
      have same := wrote rfl
      refine safe_replaceDeferred ?_
      rw [same]
      exact keeps_replaced shows member
    | error error => exact nofun

end Calls

/-- Wherever a call is cut off the archive has lost nothing, and when it returns the archive has
the copy. -/
theorem safe_preserveDeferredFile {archive : Archive Hash} {incoming : Bytes}
    (sound : archive.entries.Sound digest called)
    (distinct : Set.InjOn digest {copy | copy ∈ called}) (member : incoming ∈ called) :
    (preserveDeferredFile digest incoming).safe diskBehaves (Guarantee digest called)
      (Stores incoming) archive := by
  refine Program.safe_perform_bind ?_
  rintro answer after ⟨rfl, rfl⟩
  refine ⟨.refl, ?_⟩
  split
  · refine Program.safe_attempt_bind (fun previous _ answers => ?_) fun error _ answers => ?_
    · obtain ⟨rfl, shows⟩ := answers
      refine ⟨.refl, ?_⟩
      split
      · rename_i same
        subst same
        exact safe_reconfirm (shows incoming rfl)
      · exact safe_supersede (shows previous rfl) sound distinct member
    · obtain ⟨rfl, -⟩ := answers
      exact ⟨.refl, nofun⟩
  · rename_i absent
    refine safe_replaceDeferred (keeps_renamed member nofun fun sound copy kept => ?_)
    obtain ⟨file, visible, -⟩ := kept.visible sound
    rw [visible] at absent
    exact absurd rfl absent

/-- The first copy of a path is archived when the disk fails nothing. -/
theorem preserveDeferredFile_returns (digest : Bytes → Hash) (archive : Archive Hash)
    (incoming : Bytes) (absent : (archive.entries .deferred).visible = none) :
    ∃ after, (preserveDeferredFile digest incoming).Reaches diskBehaves archive (some (.ok true))
      after := by
  have asks : diskBehaves _ (.exists .deferred) archive false archive := ⟨rfl, by rw [absent]; rfl⟩
  let opened := archive.writing .deferred (some ⟨[], false⟩)
  have opens : diskBehaves _ (.openTemporary .deferred) archive (.ok ()) opened :=
    ⟨_, rfl, fun _ => rfl⟩
  let written := opened.writing .deferred (some ⟨incoming, false⟩)
  have writes : diskBehaves _ (.writeTemporary .deferred incoming) opened (.ok ()) written :=
    ⟨_, rfl, fun _ => rfl⟩
  let synced := written.writing .deferred (some ⟨incoming, true⟩)
  have syncs : diskBehaves _ (.syncTemporary .deferred) written (.ok ()) synced :=
    ⟨_, Archive.writing_temporaries .., rfl⟩
  have renames : diskBehaves _ (.rename .deferred) synced (.ok ())
      (synced.renamed .deferred ⟨incoming, true⟩) :=
    ⟨_, Archive.writing_temporaries .., .inl ⟨rfl, fun _ _ => rfl⟩⟩
  have flushes : diskBehaves _ (.syncArchiveDirectories .deferred)
      (synced.renamed .deferred ⟨incoming, true⟩) (.ok ())
      ((synced.renamed .deferred ⟨incoming, true⟩).flushed .deferred) :=
    .inl ⟨rfl, fun _ _ => rfl⟩
  exact ⟨_, .act asks (.act opens (.act writes (.act syncs (.act renames
    (.act flushes (.done true _))))))⟩

/-! ### Every run -/

/-- The archive is sound and has every copy whose call has returned. -/
def Preserved (digest : Bytes → Hash) (history : History Hash) : Prop :=
  history.archive.entries.Sound digest history.called ∧
    ∀ copy ∈ history.returned, history.archive.entries.Kept copy

omit [DecidableEq Hash] in
theorem Entries.Sound.mono {more : List Bytes} (sound : entries.Sound digest called)
    (subset : called ⊆ more) : entries.Sound digest more :=
  ⟨sound.shown, fun place file left => subset (sound.copies place file left), sound.named⟩

omit [DecidableEq Hash] in
theorem Entries.Crashed.keeps {before after : Entries Hash} (crashed : before.Crashed after) :
    before.Keeps digest called after := by
  intro sound
  have fewer : ∀ place version, version ∈ (after place).left → version ∈ (before place).left := by
    intro place version member
    rw [(crashed place).2, List.mem_singleton] at member
    rw [member]
    exact (crashed place).1
  refine ⟨⟨fun place => ?_, fun place file member => sound.copies place file (fewer _ _ member),
    fun hash file member => sound.named hash file (fewer _ _ member)⟩, ?_⟩
  · rw [(crashed place).2]
    exact List.mem_singleton_self _
  · rintro copy ⟨place, kept⟩
    exact ⟨place, fun version member => kept version (fewer _ _ member)⟩

omit [DecidableEq Hash] in
theorem keeps_of_guarantees {before after : Archive Hash}
    (steps : Relation.ReflTransGen (Guarantee digest called) before after) :
    before.entries.Keeps digest called after.entries := by
  induction steps with
  | refl => exact .refl
  | tail _ next inductionHypothesis => exact inductionHypothesis.trans next

theorem called_subset {before after : History Hash} (step : Step digest before after) :
    before.called ⊆ after.called := by
  cases step with
  | call reaches => exact List.subset_cons_self _ _
  | crash crashed => exact List.Subset.refl _

theorem Preserved.step {before after : History Hash} (preserved : Preserved digest before)
    (step : Step digest before after)
    (distinct : Set.InjOn digest {copy | copy ∈ after.called}) : Preserved digest after := by
  obtain ⟨sound, kept⟩ := preserved
  cases step with
  | @call incoming outcome archive reaches =>
    have soundNow : before.archive.entries.Sound digest (incoming :: before.called) :=
      sound.mono (List.subset_cons_self _ _)
    obtain ⟨keeps, stores⟩ := reaches.safe
      (safe_preserveDeferredFile soundNow distinct List.mem_cons_self)
    obtain ⟨soundAfter, keptAfter⟩ := keeps_of_guarantees keeps soundNow
    refine ⟨soundAfter, fun copy member => ?_⟩
    obtain new | old := List.mem_append.mp member
    · match outcome, new with
      | some (.ok result), new =>
        rw [returnedBy, List.mem_singleton] at new
        rw [new]
        exact stores (.ok result) rfl result rfl
    · exact keptAfter copy (kept copy old)
  | crash crashed =>
    obtain ⟨soundAfter, keptAfter⟩ := crashed.keeps sound
    exact ⟨soundAfter, fun copy member => keptAfter copy (kept copy member)⟩

theorem preserved_of_reachable {history : History Hash} (reachable : Reachable digest history)
    (distinct : Set.InjOn digest {copy | copy ∈ history.called}) : Preserved digest history := by
  induction reachable with
  | initial =>
    exact ⟨⟨fun place => List.mem_singleton_self _,
      fun place file left => absurd (List.mem_singleton.mp left) nofun,
      fun hash file left => absurd (List.mem_singleton.mp left) nofun⟩,
      fun copy member => absurd member List.not_mem_nil⟩
  | step _ next inductionHypothesis =>
    have fewer := distinct.mono fun copy member => called_subset next member
    exact (inductionHypothesis fewer).step next distinct

end AiSwitcher.TreeMerge.Deferred
