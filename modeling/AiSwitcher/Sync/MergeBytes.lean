/-
This file says when `mergeJsonlFiles` of `src/sync/dedupe.ts` merges bytes. It reads every history
as text and writes the lines it adds as text again, where the tail merge beside it compares and
appends the bytes themselves. Malformed bytes are read as replacement characters and the byte order
mark of a file is not read at all, so a record can be added in a form that no source has, or be
taken for another one and not be added.

Which lines the merge adds is decided by how often they are read; the records it should add are
those of the sources. `FileMerge.Faithful` is that these are the same.
-/

import AiSwitcher.Library.Utf8Ascii
import AiSwitcher.Sync.TailMerge

namespace AiSwitcher

open JavaScript
open Utf8 (Bytes newline)

/-! ### How a history is read -/

/-- The bytes of a file that are read as its text. -/
def unmarkedBytes (file : Bytes) : Bytes :=
  if Utf8.byteOrderMark <+: file then file.drop 3 else file

theorem readLines_eq_records (file : Bytes) :
    readLines file = Lines.records '\n' (Utf8.decode file) := by
  rw [readLines]
  by_cases empty : Utf8.decode file = []
  · rw [if_pos empty, empty]
    rfl
  · exact if_neg empty

theorem readLines_eq_map (file : Bytes) :
    readLines file =
      (Lines.records newline (unmarkedBytes file)).map (Utf8.decodeFrom .start) := by
  rw [readLines_eq_records, ← Utf8.records_decodeFrom]
  rfl

theorem newline_mem_unmarkedBytes (file : Bytes) : newline ∈ unmarkedBytes file ↔ newline ∈ file := by
  rw [unmarkedBytes]
  by_cases marked : Utf8.byteOrderMark <+: file
  · obtain ⟨rest, rfl⟩ := marked
    rw [if_pos (List.prefix_append _ _)]
    have absent : newline ∉ Utf8.byteOrderMark := by decide
    rw [List.mem_append, or_iff_right absent]
    rfl
  · rw [if_neg marked]

theorem readLines_eq_nil_iff (file : Bytes) :
    readLines file = [] ↔ Lines.records newline file = [] := by
  rw [readLines_eq_map, List.map_eq_nil_iff, Lines.records_eq_nil_iff, Lines.records_eq_nil_iff,
    newline_mem_unmarkedBytes]

/-- A history to which records can be appended. -/
def Finished (file : Bytes) : Prop :=
  file = [] ∨ file.getLast? = some newline

theorem finished_eq_terminated {file : Bytes} (finished : Finished file) :
    file = Lines.terminated newline (Lines.records newline file) := by
  obtain ⟨lines, rest, rfl, unbroken, last⟩ := Lines.exists_terminated newline file
  rw [Lines.records_form newline unbroken last]
  rw [Finished, Lines.finished_iff newline last] at finished
  rw [finished, List.append_nil]

/-- The text of a finished history ends with its last record. -/
theorem decode_of_finished {file : Bytes} (finished : Finished file) :
    Utf8.decode file = Lines.terminated '\n' (readLines file) := by
  have unmarkedFinished : Finished (unmarkedBytes file) := by
    rw [unmarkedBytes]
    by_cases marked : Utf8.byteOrderMark <+: file
    · obtain ⟨rest, rfl⟩ := marked
      rw [if_pos (List.prefix_append _ _)]
      show Finished rest
      rcases finished with empty | ends
      · cases empty
      by_cases nothing : rest = []
      · exact .inl nothing
      · rw [List.getLast?_append_of_ne_nil _ nothing] at ends
        exact .inr ends
    · rw [if_neg marked]
      exact finished
  have decoded := Utf8.decodeFrom_terminated (Lines.records newline (unmarkedBytes file)) []
  rw [List.append_nil, ← finished_eq_terminated unmarkedFinished] at decoded
  rw [readLines_eq_map]
  exact decoded.trans (List.append_nil _)

/-- A text that ends with a newline is that of a finished history. -/
theorem finished_of_decode {file : Bytes} (ends : (Utf8.decode file).getLast? = some '\n') :
    Finished file := by
  obtain ⟨before, text⟩ := List.getLast?_eq_some_iff.mp ends
  obtain ⟨front, byte, back, bytes, isByte, -, isBack⟩ :=
    Utf8.cut_ascii Utf8.State.fine_start (by decide) text
  obtain rfl := Utf8.eq_nil_of_decodeFrom isBack
  have isNewline : byte = newline := UInt8.toNat_inj.mp isByte
  right
  split at bytes
  next marked =>
    obtain ⟨rest, rfl⟩ := marked
    have whole : rest = front ++ [byte] := bytes
    rw [whole, isNewline, ← List.append_assoc, List.getLast?_concat]
  next => rw [bytes, isNewline, List.getLast?_concat]

/-! ### What a merge of whole histories adds -/

/-- What is appended is a beginning of the payload. -/
theorem appendJsonlPayload_appends (text payload : Bytes) (run : AppendRun) :
    ∃ written, (appendJsonlPayload text payload run).2 = text ++ payload.take written := by
  have nothing : ∃ written, text = text ++ payload.take written := ⟨0, (List.append_nil _).symm⟩
  have appended : ∃ written, text ++ payload.take run.written = text ++ payload.take written :=
    ⟨run.written, rfl⟩
  rw [appendJsonlPayload]
  split
  · exact nothing
  split
  · exact nothing
  split
  · exact nothing
  split
  · exact nothing
  split
  · exact nothing
  split
  · exact nothing
  dsimp only
  split
  · exact appended
  split <;> exact appended

/-- A merge that has done all it was asked to. -/
def Settled (result : JsonlMergeResult) : Prop :=
  result = .merged ∨ result = .unchanged

theorem appendJsonlPayload_unfinished {text : Bytes} (unfinished : ¬ Finished text)
    (payload : Bytes) (run : AppendRun) :
    (appendJsonlPayload text payload run).2 = text ∧
      ¬ Settled (appendJsonlPayload text payload run).1 := by
  have busy : ¬ Settled .busy := by rintro (equal | equal) <;> cases equal
  have deferred : ¬ Settled .deferred := by rintro (equal | equal) <;> cases equal
  have broken : text ≠ [] ∧ text.getLast? ≠ some newline := not_or.mp unfinished
  rw [appendJsonlPayload]
  split
  · exact ⟨rfl, busy⟩
  split
  · exact ⟨rfl, deferred⟩
  split
  · exact ⟨rfl, deferred⟩
  exact ⟨rfl, deferred⟩

section Added

variable {Line : Type} [DecidableEq Line]

theorem lt_mostIn_iff {lineSets : List (List Line)} {line : Line} {bound : Nat} :
    bound < mostIn lineSets line ↔ ∃ lines ∈ lineSets, bound < multiset lines line := by
  simp only [multiset_eq_count]
  constructor
  · intro above
    by_contra none
    push Not at none
    exact absurd (mostIn_le none) (by omega)
  · rintro ⟨lines, member, above⟩
    exact lt_of_lt_of_le above (count_le_mostIn member line)

theorem mem_mergeJsonlLineSets_iff (lineSets : List (List Line)) (line : Line) :
    line ∈ mergeJsonlLineSets lineSets ↔
      ∃ lines ∈ lineSets, multiset [] line < multiset lines line := by
  rw [← lt_mostIn_iff, ← List.count_pos_iff, count_mergeJsonlLineSets]
  rfl

theorem mem_drop_mergeJsonlLineSetsOnto_iff (base : List Line) (lineSets : List (List Line))
    (line : Line) :
    line ∈ (mergeJsonlLineSetsOnto base lineSets).drop base.length ↔
      ∃ lines ∈ lineSets, multiset base line < multiset lines line := by
  obtain ⟨more, whole⟩ := prefix_mergeJsonlLineSetsOnto base lineSets
  have total := count_mergeJsonlLineSetsOnto base lineSets line
  rw [← whole, List.count_append] at total
  rw [← lt_mostIn_iff, multiset_eq_count, ← whole, List.drop_left, ← List.count_pos_iff]
  omega

end Added

/-- The histories of a merge, as the bytes they are. -/
structure FileMerge (Path : Type) where
  contents : Path → Bytes
  paths : List Path
  destination : Option Bytes

namespace FileMerge

variable {Path : Type} [DecidableEq Path] (merge : FileMerge Path)

def held : Bytes :=
  merge.destination.getD []

def sources : List (List (List Char)) :=
  merge.paths.eraseDups.map fun path => readLines (merge.contents path)

/-- The lines that the merge writes behind what the destination holds. -/
def added : List (List Char) :=
  match merge.destination with
  | none => mergeJsonlLineSets merge.sources
  | some file =>
      (mergeJsonlLineSetsOnto (readLines file) merge.sources).drop (readLines file).length

/-- Some source reads the line more often than the destination. -/
def Lacks (line : List Char) : Prop :=
  ∃ path ∈ merge.paths,
    multiset (readLines merge.held) line < multiset (readLines (merge.contents path)) line

theorem exists_source_iff (wanted : List (List Char) → Prop) :
    (∃ lines ∈ merge.sources, wanted lines) ↔
      ∃ path ∈ merge.paths, wanted (readLines (merge.contents path)) := by
  rw [sources]
  constructor
  · rintro ⟨lines, member, holds⟩
    obtain ⟨path, isPath, rfl⟩ := List.mem_map.mp member
    exact ⟨path, List.mem_eraseDups.mp isPath, holds⟩
  · rintro ⟨path, isPath, holds⟩
    exact ⟨_, List.mem_map_of_mem (List.mem_eraseDups.mpr isPath), holds⟩

theorem mem_added (line : List Char) : line ∈ merge.added ↔ merge.Lacks line := by
  have fromSource := merge.exists_source_iff fun lines =>
    multiset (readLines merge.held) line < multiset lines line
  rw [Lacks, ← fromSource, added, held]
  cases merge.destination with
  | none => exact mem_mergeJsonlLineSets_iff _ _
  | some file => exact mem_drop_mergeJsonlLineSetsOnto_iff _ _ _

theorem added_unbroken : Lines.Unbroken '\n' merge.added := by
  intro line member
  obtain ⟨path, -, above⟩ := (merge.mem_added line).mp member
  have read : line ∈ readLines (merge.contents path) :=
    (multiset_pos_iff _ _).mp (Nat.zero_lt_of_lt above)
  rw [readLines_eq_records] at read
  exact Lines.unbroken_records '\n' _ line read

/-- The added lines as they are written. -/
def addedRecords : List Bytes :=
  merge.added.map Utf8.encode

theorem addedRecords_unbroken : Lines.Unbroken newline merge.addedRecords :=
  Utf8.unbroken_map_encode merge.added_unbroken

/-- What the merge writes. -/
def payload : Bytes :=
  Lines.terminated newline merge.addedRecords

theorem payload_eq_nil_iff : merge.payload = [] ↔ merge.added = [] := by
  rw [payload, Lines.terminated_eq_nil_iff, addedRecords, List.map_eq_nil_iff]

theorem encode_joinLines : Utf8.encode (joinLines merge.added) = merge.payload := by
  rw [payload, addedRecords, ← Utf8.encode_terminated, joinLines]
  by_cases nothing : merge.added = []
  · rw [if_pos nothing, nothing]
    rfl
  · rw [if_neg nothing, Lines.intercalate_append_newline '\n' nothing]

/-! ### Its runs -/

def run (dryRun : Bool) (answers : FileRun) : JsonlMergeResult × Option Bytes :=
  mergeJsonlFiles merge.contents merge.paths merge.destination dryRun answers

theorem run_of_none (absent : merge.destination = none) (dryRun : Bool) (answers : FileRun) :
    merge.run dryRun answers =
      if merge.paths.eraseDups = [] then (.unchanged, none)
      else if dryRun then (.merged, none)
      else if ¬ answers.creates then (.deferred, none)
      else if ¬ answers.emptyAfterCreate then (.deferred, some [])
      else if answers.written ≠ merge.payload.length then
        (.deferred, some (merge.payload.take answers.written))
      else if ¬ answers.sameAfterCreate then
        (.deferred, some (merge.payload.take answers.written))
      else (.merged, some (merge.payload.take answers.written)) := by
  have writes : merge.added = mergeJsonlLineSets merge.sources := by
    rw [added, absent]
  rw [run, mergeJsonlFiles, absent, ← encode_joinLines, writes]
  rfl

/-- The lines between which the destination's newlines stand are those it is read as. -/
theorem destinationLines_eq {file : Bytes}
    (ending : ¬ (Utf8.decode file ≠ [] ∧ (Utf8.decode file).getLast? ≠ some '\n')) :
    (if Utf8.decode file ≠ [] then Lines.split '\n' (Utf8.decode file).dropLast else []) =
      readLines file := by
  rw [readLines_eq_records]
  generalize Utf8.decode file = text at ending
  obtain ⟨lines, rest, rfl, unbroken, last⟩ := Lines.exists_terminated '\n' text
  rw [Lines.records_form '\n' unbroken last]
  rw [not_and_or, not_not, not_not, Lines.finished_iff '\n' last] at ending
  rw [ending, List.append_nil]
  exact Lines.lines_of_terminated '\n' unbroken

theorem run_of_some {file : Bytes} (present : merge.destination = some file) (dryRun : Bool)
    (answers : FileRun) :
    merge.run dryRun answers =
      if merge.paths.eraseDups = [] then (.unchanged, some file)
      else if ¬ answers.sameAfterRead then (.deferred, some file)
      else if Utf8.decode file ≠ [] ∧ (Utf8.decode file).getLast? ≠ some '\n' then
        (.deferred, some file)
      else if merge.added = [] then (.unchanged, some file)
      else if dryRun then (.merged, some file)
      else
        ((appendJsonlPayload file merge.payload answers.append).1,
          some (appendJsonlPayload file merge.payload answers.append).2) := by
  have writes : merge.added =
      (mergeJsonlLineSetsOnto (readLines file) merge.sources).drop (readLines file).length := by
    rw [added, present]
  rw [run, mergeJsonlFiles, present, ← encode_joinLines, writes]
  refine if_congr Iff.rfl rfl (if_congr Iff.rfl rfl ?_)
  dsimp only
  by_cases ending : Utf8.decode file ≠ [] ∧ (Utf8.decode file).getLast? ≠ some '\n'
  · rw [if_pos ending, if_pos ending]
  · rw [if_neg ending, if_neg ending, destinationLines_eq ending]
    rfl

/-- Whatever a run writes, it writes behind what the destination holds. -/
theorem run_appends (dryRun : Bool) (answers : FileRun) :
    (merge.run dryRun answers).2 = merge.destination ∨
      ∃ written, (merge.run dryRun answers).2 = some (merge.held ++ merge.payload.take written) := by
  cases present : merge.destination with
  | none =>
    have held : merge.held = [] := by rw [FileMerge.held, present]; rfl
    rw [merge.run_of_none present, held]
    split
    · exact .inl rfl
    split
    · exact .inl rfl
    split
    · exact .inl rfl
    split
    · exact .inr ⟨0, rfl⟩
    split
    · exact .inr ⟨answers.written, rfl⟩
    split <;> exact .inr ⟨answers.written, rfl⟩
  | some file =>
    have held : merge.held = file := by rw [FileMerge.held, present]; rfl
    rw [merge.run_of_some present, held]
    split
    · exact .inl rfl
    split
    · exact .inl rfl
    split
    · exact .inl rfl
    split
    · exact .inl rfl
    split
    · exact .inl rfl
    obtain ⟨written, appended⟩ := appendJsonlPayload_appends file merge.payload answers.append
    exact .inr ⟨written, congrArg some appended⟩

/-- Without sources nothing is added. -/
theorem added_of_no_paths (none : merge.paths.eraseDups = []) : merge.added = [] := by
  refine List.eq_nil_iff_forall_not_mem.mpr fun line member => ?_
  obtain ⟨path, isPath, -⟩ := (merge.mem_added line).mp member
  rw [← List.mem_eraseDups, none] at isPath
  exact List.not_mem_nil isPath

/-- A merge that neither waits nor gives up has written everything it adds. -/
theorem run_settled {answers : FileRun} (settled : Settled (merge.run false answers).1) :
    (merge.run false answers).2.getD [] = merge.held ++ merge.payload := by
  generalize outcome : merge.run false answers = result at settled
  obtain ⟨result, after⟩ := result
  have deferred : ∀ other : Option Bytes, (JsonlMergeResult.deferred, other) ≠ (result, after) := by
    intro other equal
    cases equal
    rcases settled with equal | equal <;> cases equal
  cases present : merge.destination with
  | none =>
    have held : merge.held = [] := by rw [FileMerge.held, present]; rfl
    rw [merge.run_of_none present] at outcome
    rw [held]
    by_cases noPaths : merge.paths.eraseDups = []
    · rw [if_pos noPaths] at outcome
      cases outcome
      rw [merge.payload_eq_nil_iff.mpr (merge.added_of_no_paths noPaths)]
      rfl
    rw [if_neg noPaths, if_neg Bool.false_ne_true] at outcome
    obtain ⟨-, outcome⟩ := past_guard outcome (deferred _)
    obtain ⟨-, outcome⟩ := past_guard outcome (deferred _)
    obtain ⟨whole, outcome⟩ := past_guard outcome (deferred _)
    obtain ⟨-, outcome⟩ := past_guard outcome (deferred _)
    cases outcome
    rw [not_not.mp whole, List.take_length]
    rfl
  | some file =>
    have held : merge.held = file := by rw [FileMerge.held, present]; rfl
    rw [merge.run_of_some present] at outcome
    rw [held]
    by_cases noPaths : merge.paths.eraseDups = []
    · rw [if_pos noPaths] at outcome
      cases outcome
      rw [merge.payload_eq_nil_iff.mpr (merge.added_of_no_paths noPaths), List.append_nil]
      rfl
    rw [if_neg noPaths] at outcome
    obtain ⟨-, outcome⟩ := past_guard outcome (deferred _)
    obtain ⟨-, outcome⟩ := past_guard outcome (deferred _)
    by_cases nothing : merge.added = []
    · rw [if_pos nothing] at outcome
      cases outcome
      rw [merge.payload_eq_nil_iff.mpr nothing, List.append_nil]
      rfl
    rw [if_neg nothing, if_neg Bool.false_ne_true] at outcome
    generalize append : appendJsonlPayload file merge.payload answers.append = answer at outcome
    obtain ⟨answer, text⟩ := answer
    cases outcome
    obtain ⟨-, appended⟩ := appendJsonlPayload_merged append
      (by rintro rfl; rcases settled with equal | equal <;> cases equal)
      (by rintro rfl; rcases settled with equal | equal <;> cases equal)
    exact appended

/-- The run in which nothing goes wrong. -/
theorem exists_run_settled (finished : Finished merge.held) :
    ∃ answers, Settled (merge.run false answers).1 := by
  refine ⟨⟨true, true, merge.payload.length, true, true, .quiet merge.payload⟩, ?_⟩
  cases present : merge.destination with
  | none =>
    rw [merge.run_of_none present]
    split
    · exact .inr rfl
    · exact .inl (by simp)
  | some file =>
    have held : merge.held = file := by rw [FileMerge.held, present]; rfl
    rw [held] at finished
    have ending : ¬ (Utf8.decode file ≠ [] ∧ (Utf8.decode file).getLast? ≠ some '\n') := by
      rw [decode_of_finished finished, not_and_or, not_not, not_not]
      have form := @Lines.finished_iff _ '\n' (readLines file) [] List.not_mem_nil
      rw [List.append_nil] at form
      exact form.mpr rfl
    rw [merge.run_of_some present]
    by_cases noPaths : merge.paths.eraseDups = []
    · rw [if_pos noPaths]
      exact .inr rfl
    rw [if_neg noPaths, if_neg (not_not.mpr rfl), if_neg ending]
    by_cases nothing : merge.added = []
    · rw [if_pos nothing]
      exact .inr rfl
    rw [if_neg nothing, if_neg Bool.false_ne_true]
    exact .inl (congrArg Prod.fst (appendJsonlPayload_quiet merge.payload finished))

/-- To a history that does not end with a newline nothing is appended, and such a merge only
settles when no source has a record. -/
theorem run_unfinished (unfinished : ¬ Finished merge.held) :
    (∀ dryRun answers, (merge.run dryRun answers).2 = merge.destination) ∧
      ∀ answers, Settled (merge.run false answers).1 →
        ∀ path ∈ merge.paths, Lines.records newline (merge.contents path) = [] := by
  cases present : merge.destination with
  | none => exact absurd (.inl (by rw [held, present]; rfl)) unfinished
  | some file =>
    have held : merge.held = file := by rw [FileMerge.held, present]; rfl
    rw [held] at unfinished
    have untouched (answers : AppendRun) :
        (appendJsonlPayload file merge.payload answers).2 = file ∧
          ¬ Settled (appendJsonlPayload file merge.payload answers).1 :=
      appendJsonlPayload_unfinished unfinished _ _
    constructor
    · intro dryRun answers
      rw [merge.run_of_some present]
      split
      · rfl
      split
      · rfl
      split
      · rfl
      split
      · rfl
      split
      · rfl
      · exact congrArg some (untouched answers.append).1
    · intro answers settled path isPath
      rw [merge.run_of_some present] at settled
      split at settled
      next none => exact absurd (List.mem_eraseDups.mpr isPath) (none ▸ List.not_mem_nil)
      split at settled
      · rcases settled with equal | equal <;> cases equal
      split at settled
      · rcases settled with equal | equal <;> cases equal
      next _ ending =>
      split at settled
      next nothing =>
        have empty : Utf8.decode file = [] := by
          by_contra text
          exact unfinished (finished_of_decode (by tauto))
        have heldLines : readLines file = [] := by rw [readLines, if_pos empty]
        rw [← readLines_eq_nil_iff]
        refine List.eq_nil_iff_forall_not_mem.mpr fun line member => ?_
        have lacks : merge.Lacks line := by
          refine ⟨path, isPath, ?_⟩
          rw [held, heldLines]
          exact (multiset_pos_iff _ _).mpr member
        rw [← merge.mem_added, nothing] at lacks
        exact List.not_mem_nil lacks
      rw [if_neg Bool.false_ne_true] at settled
      exact absurd settled (untouched answers.append).2

/-! ### When a merge is byte exact -/

/-- A complete record of some source, byte for byte. -/
def SourceRecord (record : Bytes) : Prop :=
  ∃ path ∈ merge.paths, record ∈ Lines.records newline (merge.contents path)

/-- Every run keeps the destination and appends nothing but records of sources, the last of which
it may leave unfinished; and every record of a source is in what a settled run leaves, so that no
two of them have become one. -/
structure ByteExact : Prop where
  kept : ∀ dryRun answers file, merge.destination = some file →
    ∃ after, (merge.run dryRun answers).2 = some after ∧ file <+: after
  appended : ∀ dryRun answers, ∃ records : List Bytes, (∀ record ∈ records, merge.SourceRecord record) ∧
    (merge.run dryRun answers).2.getD [] <+: merge.held ++ Lines.terminated newline records
  present : ∀ answers, Settled (merge.run false answers).1 → ∀ record, merge.SourceRecord record →
    record ∈ Lines.records newline ((merge.run false answers).2.getD [])

/-- Counting lines as they are read is counting records: what some source reads more often than the
destination is, written out, a record of a source; and a record of a source that the destination
does not have is well formed and its line is read more often by some source. -/
structure Faithful : Prop where
  genuine : ∀ line, merge.Lacks line → merge.SourceRecord (Utf8.encode line)
  counted : ∀ record, merge.SourceRecord record → record ∉ Lines.records newline merge.held →
    ∃ line, Utf8.encode line = record ∧ merge.Lacks line

theorem records_append_payload (finished : Finished merge.held) :
    Lines.records newline (merge.held ++ merge.payload) =
      Lines.records newline merge.held ++ merge.addedRecords := by
  have unbroken : Lines.Unbroken newline
      (Lines.records newline merge.held ++ merge.addedRecords) :=
    (Lines.unbroken_append newline).mpr
      ⟨Lines.unbroken_records newline _, merge.addedRecords_unbroken⟩
  have appended := Lines.records_append_terminated newline unbroken
  rwa [← finished_eq_terminated finished] at appended

theorem mem_addedRecords (record : Bytes) :
    record ∈ merge.addedRecords ↔ ∃ line, Utf8.encode line = record ∧ merge.Lacks line := by
  rw [addedRecords, List.mem_map]
  refine exists_congr fun line => ?_
  rw [merge.mem_added]
  exact and_comm

theorem run_kept (dryRun : Bool) (answers : FileRun) {file : Bytes}
    (present : merge.destination = some file) :
    ∃ after, (merge.run dryRun answers).2 = some after ∧ file <+: after := by
  have held : merge.held = file := by rw [FileMerge.held, present]; rfl
  rcases merge.run_appends dryRun answers with same | ⟨written, same⟩
  · exact ⟨file, same.trans present, List.prefix_refl _⟩
  · exact ⟨_, same, held ▸ List.prefix_append _ _⟩

theorem Faithful.byteExact (faithful : merge.Faithful) (finished : Finished merge.held) :
    merge.ByteExact := by
  refine ⟨fun dryRun answers file => merge.run_kept dryRun answers, fun dryRun answers => ?_,
    fun answers settled record isRecord => ?_⟩
  · refine ⟨merge.addedRecords, fun record member => ?_, ?_⟩
    · obtain ⟨line, rfl, lacks⟩ := (merge.mem_addedRecords record).mp member
      exact faithful.genuine line lacks
    · rcases merge.run_appends dryRun answers with same | ⟨written, same⟩
      · rw [same]
        exact List.prefix_append _ _
      · rw [same]
        exact List.prefix_append_right_inj _ |>.mpr (List.take_prefix _ _)
  · rw [merge.run_settled settled, merge.records_append_payload finished, List.mem_append]
    by_cases inHeld : record ∈ Lines.records newline merge.held
    · exact .inl inHeld
    · exact .inr ((merge.mem_addedRecords record).mpr (faithful.counted record isRecord inHeld))

theorem ByteExact.faithful (exact : merge.ByteExact) (finished : Finished merge.held) :
    merge.Faithful := by
  obtain ⟨answers, settled⟩ := merge.exists_run_settled finished
  have whole := merge.run_settled settled
  constructor
  · intro line lacks
    obtain ⟨records, fromSources, within⟩ := exact.appended false answers
    rw [whole, List.prefix_append_right_inj] at within
    have unbroken : Lines.Unbroken newline records := by
      intro record member
      obtain ⟨path, -, isRecord⟩ := fromSources record member
      exact Lines.unbroken_records newline _ record isRecord
    have first := Lines.prefix_of_terminated newline merge.addedRecords_unbroken unbroken within
    exact fromSources _ (first.subset ((merge.mem_addedRecords _).mpr ⟨line, rfl, lacks⟩))
  · intro record isRecord notHeld
    have present := exact.present answers settled record isRecord
    rw [whole, merge.records_append_payload finished, List.mem_append] at present
    exact (merge.mem_addedRecords record).mp (present.resolve_left notHeld)

theorem byteExact_unfinished (unfinished : ¬ Finished merge.held) : merge.ByteExact := by
  obtain ⟨untouched, nothing⟩ := merge.run_unfinished unfinished
  refine ⟨fun dryRun answers file => merge.run_kept dryRun answers, fun dryRun answers => ?_,
    fun answers settled record ⟨path, isPath, isRecord⟩ => ?_⟩
  · refine ⟨[], List.forall_mem_nil _, ?_⟩
    rw [untouched]
    exact List.prefix_append _ _
  · rw [nothing answers settled path isPath] at isRecord
    cases isRecord

/-- A file that is read as the bytes it is. -/
def WellFormed (file : Bytes) : Prop :=
  ¬ Utf8.byteOrderMark <+: file ∧
    ∀ record ∈ Lines.records newline file, ∃ line, Utf8.encode line = record

theorem map_encode_readLines {file : Bytes} (wellFormed : WellFormed file) :
    (readLines file).map Utf8.encode = Lines.records newline file := by
  rw [readLines_eq_map, unmarkedBytes, if_neg wellFormed.1, List.map_map]
  have same : ∀ record ∈ Lines.records newline file,
      Utf8.encode (Utf8.decodeFrom .start record) = record := by
    intro record member
    obtain ⟨line, rfl⟩ := wellFormed.2 record member
    exact congrArg Utf8.encode (Utf8.decodeFrom_encode line)
  exact (List.map_congr_left same).trans (List.map_id _)

/-- Histories of well-formed text without byte order marks are merged exactly. -/
theorem byteExact_of_wellFormed (sources : ∀ path ∈ merge.paths, WellFormed (merge.contents path))
    (held : WellFormed merge.held) : merge.ByteExact := by
  have faithful : merge.Faithful := by
    constructor
    · rintro line ⟨path, isPath, above⟩
      have read := (multiset_pos_iff _ _).mp (Nat.zero_lt_of_lt above)
      refine ⟨path, isPath, ?_⟩
      rw [← map_encode_readLines (sources path isPath)]
      exact List.mem_map_of_mem read
    · rintro record ⟨path, isPath, isRecord⟩ notHeld
      rw [← map_encode_readLines (sources path isPath)] at isRecord
      obtain ⟨line, read, rfl⟩ := List.mem_map.mp isRecord
      have unread : line ∉ readLines merge.held := by
        intro inHeld
        rw [← map_encode_readLines held] at notHeld
        exact notHeld (List.mem_map_of_mem inHeld)
      rw [← multiset_pos_iff] at read unread
      exact ⟨line, rfl, path, isPath, by omega⟩
  by_cases finished : Finished merge.held
  · exact faithful.byteExact merge finished
  · exact (merge.byteExact_unfinished finished)

/-- Two histories of one record each, neither of them well formed. -/
def malformed : FileMerge Bool where
  contents second := if second then [0xFE, newline] else [0xFF, newline]
  paths := [false, true]
  destination := some []

end FileMerge

end AiSwitcher
