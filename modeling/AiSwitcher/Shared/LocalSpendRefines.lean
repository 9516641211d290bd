/-
This file proves how far the asynchronous reader agrees with the synchronous one. However a file is
cut into chunks, its lines are those of its text, and whatever the cache holds are the records of a
file that did not change since; so nothing depends on either. Only the decoders differ: the one of
a stream drops a byte order mark, and so the first line of a file that begins with one is read by
one reader alone.
-/

import AiSwitcher.Library.Lists
import AiSwitcher.Library.Text
import AiSwitcher.Shared.LocalSpendAsync
import AiSwitcher.Shared.LocalSpendListing

namespace AiSwitcher.LocalSpend

open JavaScript JsonText
open Utf8 (Bytes Decoder)

/-! ### The text of a stream -/

theorem decodeFrom_eq_feed (state : Utf8.State) (bytes : Bytes) :
    Utf8.decodeFrom state bytes = (Utf8.feed state bytes).1 ++
      if (Utf8.feed state bytes).2 = .start then [] else [Utf8.replacement] := by
  induction bytes generalizing state with
  | nil => rfl
  | cons byte rest inductionHypothesis =>
    rw [Utf8.decodeFrom, Utf8.feed, inductionHypothesis, List.append_assoc]

/-- A text without a byte order mark before it. -/
def withoutMark (text : List Char) : List Char := (Utf8.unmarked false text).1

theorem write_append_flush (bytes : Bytes) :
    (Decoder.new.write bytes).1 ++ (Decoder.new.write bytes).2.flush =
      withoutMark (Utf8.decodeFrom .start bytes) := by
  rw [withoutMark, decodeFrom_eq_feed, Utf8.unmarked_append]
  rfl

theorem flatten_fileTextChunksFrom (decoder : Decoder) (blobs : List Bytes) :
    (fileTextChunksFrom decoder blobs).flatten =
      codeUnits ((decoder.write blobs.flatten).1 ++ (decoder.write blobs.flatten).2.flush) := by
  induction blobs generalizing decoder with
  | nil =>
    rw [List.flatten_nil, Decoder.write_nil, List.nil_append, fileTextChunksFrom]
    cases decoder.flush with
    | nil => rfl
    | cons first tail => exact List.append_nil _
  | cons blob rest inductionHypothesis =>
    rw [fileTextChunksFrom, List.flatten_append, flatten_pieces (by decide), inductionHypothesis,
      List.flatten_cons, Decoder.write_append, List.append_assoc, codeUnits, codeUnits, codeUnits,
      ← List.flatMap_append]

/-! ### The lines of chunks -/

section Reader

variable {Num : Type} {scanner : Scanner Num}

theorem foldl_pushChunk (scan : Scan Num) (chunks : List Units) (before : Units) :
    chunks.foldl (pushChunk scanner)
        ((Lines.records newlineUnit before).foldl (pushUnits scanner) scan,
          Lines.unfinished newlineUnit before) =
      ((Lines.records newlineUnit (before ++ chunks.flatten)).foldl (pushUnits scanner) scan,
        Lines.unfinished newlineUnit (before ++ chunks.flatten)) := by
  induction chunks generalizing before with
  | nil => rw [List.flatten_nil, List.append_nil]; rfl
  | cons chunk chunks inductionHypothesis =>
    obtain ⟨records, unfinished⟩ := Lines.append_parts newlineUnit before chunk
    rw [List.foldl_cons, pushChunk]
    dsimp only
    rw [← List.foldl_append, ← records, ← unfinished, inductionHypothesis, List.flatten_cons,
      List.append_assoc]

/-- Chunks that spell a text give the records of the text. -/
theorem collectRecordsFromChunks_eq {chunks : List Units} {text : List Char}
    (spells : chunks.flatten = codeUnits text) :
    collectRecordsFromChunks scanner chunks = recordsOf scanner text := by
  have pushes : chunks.foldl (pushChunk scanner) (.start, []) =
      ((Lines.records newlineUnit chunks.flatten).foldl (pushUnits scanner) .start,
        Lines.unfinished newlineUnit chunks.flatten) := foldl_pushChunk .start chunks []
  have last : pushUnits scanner
      ((Lines.records newlineUnit (codeUnits text)).foldl (pushUnits scanner) .start)
        (Lines.unfinished newlineUnit (codeUnits text)) =
      (Lines.split newlineUnit (codeUnits text)).foldl (pushUnits scanner) .start := by
    rw [Lines.split_eq, List.foldl_append]
    rfl
  rw [collectRecordsFromChunks, pushes, spells]
  dsimp only
  rw [last, split_codeUnits, List.foldl_map, recordsOf]
  simp only [pushUnits, charsOf_codeUnits]

/-- What the asynchronous reader finds in a file that it reads. -/
def streamedRecords (scanner : Scanner Num) (bytes : Bytes) : List (UsageRecord Num) :=
  recordsOf scanner (withoutMark (Utf8.decodeFrom .start bytes))

theorem collectRecordsFromChunks_fileTextChunks (blobs : List Bytes) :
    collectRecordsFromChunks scanner (fileTextChunks blobs) =
      streamedRecords scanner blobs.flatten :=
  collectRecordsFromChunks_eq
    ((flatten_fileTextChunksFrom _ _).trans (congrArg codeUnits (write_append_flush _)))

end Reader

/-! ### What a line does -/

section Effects

variable {Num : Type} (runtime : SpendRuntime Num)

/-- What a line does to a scan: nothing, name the model of the turns that follow, or add a record
for the model of its turn. -/
inductive Effect (Num : Type) where
  | nothing
  | turn (model : Units)
  | usage (record : Value → UsageRecord Num)

def Effect.apply (scan : Scan Num) : Effect Num → Scan Num
  | .nothing => scan
  | .turn model => { scan with model := .str model }
  | .usage record => { scan with records := scan.records ++ [record scan.model] }

def codexEffect (line : List Char) : Effect Num :=
  if !includes line "token_count" && !includes line "turn_context" then .nothing
  else
    match parse runtime.number line with
    | none => .nothing
    | some parsed =>
        let payload := property parsed "payload"
        match isText (property parsed "type") "turn_context",
          (chained payload "model").bind Value.asString? with
        | true, some model => .turn model
        | _, _ =>
            if !isText (property parsed "type") "event_msg" ||
                !isText (chained payload "type") "token_count" then .nothing
            else
              match (chained (chained payload "info") "last_token_usage").filter isTruthy with
              | none => .nothing
              | some usage => .usage fun model => codexRecord runtime model parsed usage

def claudeEffect (line : List Char) : Effect Num :=
  if !includes line "\"usage\"" then .nothing
  else
    match parse runtime.number line with
    | none => .nothing
    | some parsed =>
        match (chained (property parsed "message") "usage").filter isTruthy with
        | none => .nothing
        | some usage => .usage fun _ => claudeRecord runtime parsed usage

theorem pushCodex_eq (scan : Scan Num) (line : List Char) :
    pushCodex runtime scan line = (codexEffect runtime line).apply scan := by
  unfold pushCodex codexEffect
  cases !includes line "token_count" && !includes line "turn_context" with
  | true => rfl
  | false =>
    cases parse runtime.number line with
    | none => rfl
    | some parsed =>
      rw [if_neg Bool.false_ne_true, if_neg Bool.false_ne_true]
      dsimp only
      cases isText (property parsed "type") "turn_context" <;>
        cases (chained (property parsed "payload") "model").bind Value.asString? <;>
        cases !isText (property parsed "type") "event_msg" ||
          !isText (chained (property parsed "payload") "type") "token_count" <;>
        cases (chained (chained (property parsed "payload") "info") "last_token_usage").filter
          isTruthy <;>
        rfl

theorem pushClaude_eq (scan : Scan Num) (line : List Char) :
    pushClaude runtime scan line = (claudeEffect runtime line).apply scan := by
  unfold pushClaude claudeEffect
  cases !includes line "\"usage\"" with
  | true => rfl
  | false =>
    cases parse runtime.number line with
    | none => rfl
    | some parsed =>
      rw [if_neg Bool.false_ne_true, if_neg Bool.false_ne_true]
      dsimp only
      cases (chained (property parsed "message") "usage").filter isTruthy <;> rfl

/-- A byte order mark before a line makes it no JSON. -/
theorem parse_mark (line : List Char) : parse runtime.number (Utf8.mark :: line) = none := by
  have notSpace : skipSpace (Utf8.mark :: line) = Utf8.mark :: line := by
    rw [skipSpace, List.dropWhile_cons_of_neg (by decide)]
  have unread (fuel : ℕ) : readValue runtime.number fuel (Utf8.mark :: line) = none := by
    cases fuel with
    | zero => rfl
    | succ fuel =>
      rw [readValue, expect_cons_of_ne (by decide), expect_cons_of_ne (by decide),
        expect_cons_of_ne (by decide)]
      rfl
  rw [parse, notSpace, unread]
  rfl

/-- What the scanners have in common. A record's timestamp does not depend on the model; where
lines name models, the records carry them. -/
structure Lawful (effect : List Char → Effect Num) : Prop where
  marked : ∀ line, effect (Utf8.mark :: line) = .nothing
  stamped : ∀ line record, effect line = .usage record →
    ∀ first second, (record first).atMs = (record second).atMs
  named : (∀ line model, effect line ≠ .turn model) ∨
    ∀ line record, effect line = .usage record → ∀ model, (record model).model = model

theorem lawful_codexEffect : Lawful (codexEffect runtime) := by
  have usage {line : List Char} {record : Value → UsageRecord Num}
      (adds : codexEffect runtime line = .usage record) :
      ∃ parsed usage, record = fun model => codexRecord runtime model parsed usage := by
    unfold codexEffect at adds
    split at adds
    · cases adds
    split at adds
    · cases adds
    dsimp only at adds
    split at adds
    · cases adds
    split at adds
    · cases adds
    split at adds
    · cases adds
    · exact ⟨_, _, (Effect.usage.inj adds).symm⟩
  refine ⟨fun line => ?_, fun line record adds first second => ?_,
    .inr fun line record adds model => ?_⟩
  · rw [codexEffect, parse_mark, ite_self]
  · obtain ⟨parsed, usage, rfl⟩ := usage adds
    rfl
  · obtain ⟨parsed, usage, rfl⟩ := usage adds
    rfl

theorem lawful_claudeEffect : Lawful (claudeEffect runtime) := by
  refine ⟨fun line => ?_, fun line record adds first second => ?_, .inl fun line model turns => ?_⟩
  · rw [claudeEffect, parse_mark, ite_self]
  · unfold claudeEffect at adds
    split at adds
    · cases adds
    split at adds
    · cases adds
    split at adds
    · cases adds
    · rw [← Effect.usage.inj adds]
  · unfold claudeEffect at turns
    split at turns
    · cases turns
    split at turns
    · cases turns
    split at turns <;> cases turns

/-- The effects of a scanner. -/
def effectOf (toolName : String) : List Char → Effect Num :=
  if toolName = "codex" then codexEffect runtime else claudeEffect runtime

theorem scanner_eq {toolName rootName : String} {scanner : Scanner Num}
    (isReader : scannerOf runtime toolName = some (scanner, rootName)) :
    scanner = (fun scan line => (effectOf runtime toolName line).apply scan) ∧
      Lawful (effectOf runtime toolName) := by
  unfold scannerOf at isReader
  unfold effectOf
  split at isReader
  · next codex =>
    cases isReader
    rw [if_pos codex]
    exact ⟨funext₂ (pushCodex_eq runtime), lawful_codexEffect runtime⟩
  split at isReader
  · next other _ =>
    cases isReader
    rw [if_neg other]
    exact ⟨funext₂ (pushClaude_eq runtime), lawful_claudeEffect runtime⟩
  · cases isReader

end Effects

/-! ### The first line behind a byte order mark -/

section Marked

variable {Num : Type} {periodStart : PeriodStart} {effect : List Char → Effect Num}

/-- The records that lines add, from the model of the last turn on. -/
def produced : Value → List (Effect Num) → List (UsageRecord Num)
  | _, [] => []
  | model, .nothing :: rest => produced model rest
  | _, .turn model :: rest => produced (.str model) rest
  | model, .usage record :: rest => record model :: produced model rest

theorem records_foldl_apply (scan : Scan Num) (effects : List (Effect Num)) :
    (effects.foldl Effect.apply scan).records = scan.records ++ produced scan.model effects := by
  induction effects generalizing scan with
  | nil => exact (List.append_nil _).symm
  | cons first rest inductionHypothesis =>
    rw [List.foldl_cons, inductionHypothesis]
    cases first with
    | nothing => rfl
    | turn model => rfl
    | usage record => exact List.append_assoc _ _ _

theorem recordsOf_apply (content : List Char) :
    recordsOf (fun scan line => (effect line).apply scan) content =
      produced (text "unknown") ((Lines.split '\n' content).map effect) := by
  rw [recordsOf, ← List.foldl_map, records_foldl_apply]
  rfl

def Effect.isTurn : Effect Num → Bool
  | .turn _ => true
  | _ => false

/-- Whether a line adds a record that counts; which model it is for makes no difference. -/
def Effect.counts (periodStart : PeriodStart) : Effect Num → Bool
  | .usage record => isCounted periodStart.time (record (text "unknown"))
  | _ => false

/-- Whether the first of some lines adds a record that counts, or names another model for such
records of its turn. -/
def FirstMatters (periodStart : PeriodStart) : List (Effect Num) → Prop
  | .usage record :: _ => isCounted periodStart.time (record (text "unknown")) = true
  | .turn model :: rest => model ≠ codeUnits "unknown".toList ∧
      (rest.takeWhile fun next => !next.isTurn).any (Effect.counts periodStart) = true
  | _ => False

/-- The text of a file begins with a byte order mark, and its first line matters. -/
def MarkMatters (effect : List Char → Effect Num) (periodStart : PeriodStart) (file : File) : Prop :=
  ∃ bytes rest, file.content = some bytes ∧ Utf8.decodeFrom .start bytes = Utf8.mark :: rest ∧
    FirstMatters periodStart ((Lines.split '\n' rest).map effect)

theorem isCounted_record (lawful : Lawful effect) {line : List Char}
    {record : Value → UsageRecord Num} (adds : effect line = .usage record) (first second : Value) :
    isCounted periodStart.time (record first) = isCounted periodStart.time (record second) := by
  rw [isCounted, isCounted, lawful.stamped line record adds first second]

theorem length_filterPeriod_produced (lawful : Lawful effect) (first second : Value)
    (lines : List (List Char)) :
    (filterPeriod (produced first (lines.map effect)) periodStart.time).length =
      (filterPeriod (produced second (lines.map effect)) periodStart.time).length := by
  induction lines with
  | nil => rfl
  | cons line rest inductionHypothesis =>
    rw [List.map_cons]
    cases adds : effect line with
    | nothing => exact inductionHypothesis
    | turn model => rfl
    | usage record =>
      rw [produced, produced, filterPeriod, filterPeriod, List.filter_cons, List.filter_cons,
        isCounted_record lawful adds first second]
      split
      · exact congrArg (· + 1) inductionHypothesis
      · exact inductionHypothesis

/-- Records for different models differ as soon as one of their turn counts. -/
theorem filterPeriod_produced_eq_iff (lawful : Lawful effect)
    (named : ∀ line record, effect line = .usage record → ∀ model, (record model).model = model)
    {first second : Value} (different : first ≠ second) (lines : List (List Char)) :
    filterPeriod (produced first (lines.map effect)) periodStart.time =
        filterPeriod (produced second (lines.map effect)) periodStart.time ↔
      ((lines.map effect).takeWhile fun next => !next.isTurn).any (Effect.counts periodStart) =
        false := by
  induction lines with
  | nil => exact ⟨fun _ => rfl, fun _ => rfl⟩
  | cons line rest inductionHypothesis =>
    rw [List.map_cons]
    cases adds : effect line with
    | nothing => exact inductionHypothesis
    | turn model => exact ⟨fun _ => rfl, fun _ => rfl⟩
    | usage record =>
      rw [produced, produced, filterPeriod, filterPeriod, List.filter_cons, List.filter_cons,
        isCounted_record lawful adds first second, List.takeWhile_cons_of_pos rfl, List.any_cons,
        Effect.counts, isCounted_record lawful adds (text "unknown") second]
      cases isCounted periodStart.time (record second) with
      | true =>
        rw [if_pos rfl, if_pos rfl, Bool.true_or]
        refine ⟨fun same => absurd ?_ different, fun equal => Bool.noConfusion equal⟩
        have models := congrArg UsageRecord.model (List.cons.inj same).1
        rwa [named line record adds, named line record adds] at models
      | false =>
        rw [if_neg Bool.false_ne_true, if_neg Bool.false_ne_true, Bool.false_or]
        exact inductionHypothesis

/-- Reading a first line changes the records that count exactly if the line matters. -/
theorem filterPeriod_cons_eq_iff (lawful : Lawful effect) (line : List Char)
    (lines : List (List Char)) :
    filterPeriod (produced (text "unknown") (lines.map effect)) periodStart.time =
        filterPeriod (produced (text "unknown") ((line :: lines).map effect)) periodStart.time ↔
      ¬ FirstMatters periodStart ((line :: lines).map effect) := by
  rw [List.map_cons]
  cases does : effect line with
  | nothing => exact ⟨fun _ => not_false, fun _ => rfl⟩
  | turn model =>
    rcases lawful.named with never | named
    · exact absurd does (never line model)
    · rw [produced, FirstMatters]
      by_cases same : model = codeUnits "unknown".toList
      · rw [same]
        exact ⟨fun _ both => both.1 rfl, fun _ => rfl⟩
      · have different : text "unknown" ≠ Value.str model :=
          fun equal => same (Value.str.inj equal).symm
        rw [filterPeriod_produced_eq_iff lawful named different, not_and, Bool.not_eq_true]
        exact ⟨fun none _ => none, fun none => none same⟩
  | usage record =>
    rw [produced, FirstMatters, filterPeriod, filterPeriod, List.filter_cons, Bool.not_eq_true]
    cases isCounted periodStart.time (record (text "unknown")) with
    | true =>
      rw [if_pos rfl]
      exact ⟨fun same => absurd (congrArg List.length same) (Nat.ne_of_lt (Nat.lt_succ_self _)),
        fun equal => Bool.noConfusion equal⟩
    | false => exact ⟨fun _ => rfl, fun _ => rfl⟩

theorem length_filterPeriod_cons (lawful : Lawful effect) (line : List Char)
    (lines : List (List Char)) :
    (filterPeriod (produced (text "unknown") (lines.map effect)) periodStart.time).length ≤
      (filterPeriod (produced (text "unknown") ((line :: lines).map effect))
        periodStart.time).length := by
  rw [List.map_cons]
  cases effect line with
  | nothing => exact Nat.le_refl _
  | turn model => exact (length_filterPeriod_produced lawful _ _ lines).le
  | usage record =>
    rw [produced, filterPeriod, filterPeriod, List.filter_cons]
    split
    · exact Nat.le_succ _
    · exact Nat.le_refl _

/-- The records of a file that count, as the asynchronous reader finds them. -/
def streamedPeriodRecords (scanner : Scanner Num) (periodStart : PeriodStart) (file : File) :
    List (UsageRecord Num) :=
  match file.content with
  | none => []
  | some bytes => filterPeriod (streamedRecords scanner bytes) periodStart.time

theorem split_mark (rest : List Char) : ∃ line lines, Lines.split '\n' rest = line :: lines ∧
    Lines.split '\n' (Utf8.mark :: rest) = (Utf8.mark :: line) :: lines := by
  cases parts : Lines.split '\n' rest with
  | nil =>
    rw [Lines.split_eq] at parts
    cases List.append_eq_nil_iff.mp parts |>.2
  | cons line lines =>
    refine ⟨line, lines, rfl, ?_⟩
    rw [Lines.split, if_neg (by decide), parts]

theorem withoutMark_of_unmarked {content : List Char} (unmarked : ∀ rest, content ≠ Utf8.mark :: rest) :
    withoutMark content = content := by
  cases content with
  | nil => rfl
  | cons first rest =>
    have different : first ≠ Utf8.mark := fun same => unmarked rest (by rw [same])
    rw [withoutMark, Utf8.unmarked, if_neg different]

/-- Both readers find the same in a file exactly if no byte order mark matters, and the
asynchronous one never finds less. -/
theorem periodRecords_streamed (lawful : Lawful effect) (file : File) :
    (periodRecords (fun scan line => (effect line).apply scan) periodStart file =
        streamedPeriodRecords (fun scan line => (effect line).apply scan) periodStart file ↔
      ¬ MarkMatters effect periodStart file) ∧
    (periodRecords (fun scan line => (effect line).apply scan) periodStart file).length ≤
      (streamedPeriodRecords (fun scan line => (effect line).apply scan) periodStart file).length := by
  rw [periodRecords, streamedPeriodRecords, readText]
  cases content : file.content with
  | none =>
    refine ⟨⟨fun _ matters => ?_, fun _ => rfl⟩, Nat.le_refl _⟩
    obtain ⟨bytes, rest, present, -⟩ := matters
    rw [content] at present
    cases present
  | some bytes =>
    rw [Option.map_some]
    dsimp only
    rw [streamedRecords, recordsOf_apply, recordsOf_apply]
    by_cases marked : ∃ rest, Utf8.decodeFrom .start bytes = Utf8.mark :: rest
    · obtain ⟨rest, decodes⟩ := marked
      obtain ⟨line, lines, parts, markedParts⟩ := split_mark rest
      have matters : MarkMatters effect periodStart file ↔
          FirstMatters periodStart ((line :: lines).map effect) := by
        rw [← parts]
        constructor
        · rintro ⟨others, tail, present, same, matters⟩
          rw [content] at present
          cases present
          rw [decodes] at same
          cases same
          exact matters
        · exact fun matters => ⟨bytes, rest, content, decodes, matters⟩
      have without : withoutMark (Utf8.mark :: rest) = rest := by
        rw [withoutMark, Utf8.unmarked, if_pos rfl]
      rw [decodes, without, markedParts, parts, List.map_cons, lawful.marked, produced, matters]
      exact ⟨filterPeriod_cons_eq_iff lawful line lines, length_filterPeriod_cons lawful line lines⟩
    · rw [withoutMark_of_unmarked fun rest decodes => marked ⟨rest, decodes⟩]
      refine ⟨⟨fun _ matters => ?_, fun _ => rfl⟩, Nat.le_refl _⟩
      obtain ⟨others, rest, present, decodes, -⟩ := matters
      rw [content] at present
      cases present
      exact marked ⟨rest, decodes⟩

end Marked

/-! ### The record cache -/

theorem fileFingerprint_injective {first second : Stat}
    (same : fileFingerprint first = fileFingerprint second) : first = second := by
  have unbroken (info : Stat) : Lines.Unbroken ':'
      ([info.dev, info.ino, info.size, info.mtimeNs, info.ctimeNs].map (Nat.toDigits 10)) :=
    List.forall_mem_map.mpr fun number _ => not_mem_toDigits rfl number
  have fields (info : Stat) : Lines.records ':' (fileFingerprint info ++ [':']) =
      [info.dev, info.ino, info.size, info.mtimeNs, info.ctimeNs].map (Nat.toDigits 10) := by
    have form := Lines.records_form ':' (unbroken info) List.not_mem_nil
    have present : [info.dev, info.ino, info.size, info.mtimeNs, info.ctimeNs].map
        (Nat.toDigits 10) ≠ [] := List.cons_ne_nil _ _
    rwa [List.append_nil, ← Lines.intercalate_append_newline ':' present] at form
  have digits := (fields first).symm.trans ((congrArg _ (by rw [same])).trans (fields second))
  simp only [List.map_cons, List.map_nil, List.cons.injEq, and_true] at digits
  obtain ⟨dev, ino, size, mtimeNs, ctimeNs⟩ := digits
  cases first
  cases second
  rw [Stat.mk.injEq]
  exact ⟨toDigits_injective dev, toDigits_injective ino, toDigits_injective size,
    toDigits_injective mtimeNs, toDigits_injective ctimeNs⟩

section Calls

variable {Num : Type} {runtime : SpendRuntime Num} {scanner : Scanner Num} {rootName : String}

/-- The files that a call lists. -/
def Lists (runtime : SpendRuntime Num) (call : AsyncCall) (file : File) : Prop :=
  ∃ scanner rootName entries, scannerOf runtime call.toolName = some (scanner, rootName) ∧
    call.sessions = some entries ∧ file ∈ call.files rootName entries

/-- Whatever the buffers are, they are those of the file. -/
def Cuts (call : AsyncCall) : Prop :=
  ∀ file bytes, file.content = some bytes → (call.blobs file).flatten = bytes

/-- An entry holds what is in a file that one of the calls has listed. -/
def Found (runtime : SpendRuntime Num) (calls : List AsyncCall) (tool key : String)
    (entry : CachedFile Num) : Prop :=
  ∃ call ∈ calls, ∃ file bytes scanner rootName, Lists runtime call file ∧
    scannerOf runtime tool = some (scanner, rootName) ∧ .ofList file.path = key ∧
    file.content = some bytes ∧ entry.fingerprint = fileFingerprint file.info ∧
    entry.records = streamedRecords scanner bytes

def Sound (runtime : SpendRuntime Num) (calls : List AsyncCall) (cache : RecordCache Num) : Prop :=
  ∀ key entry, (key, entry) ∈ cache.files → Found runtime calls cache.tool key entry

theorem Found.mono {calls more : List AsyncCall} (fewer : calls ⊆ more) {tool key : String}
    {entry : CachedFile Num} (found : Found runtime calls tool key entry) :
    Found runtime more tool key entry := by
  obtain ⟨call, member, rest⟩ := found
  exact ⟨call, fewer member, rest⟩

theorem Sound.mono {calls more : List AsyncCall} (fewer : calls ⊆ more) {cache : RecordCache Num}
    (sound : Sound runtime calls cache) : Sound runtime more cache :=
  fun key entry member => (sound key entry member).mono fewer

/-- What is read of a cache is sound, and for the tool. -/
theorem readRecordCache_sound {calls : List AsyncCall} {stored : Option (RecordCache Num)}
    (sound : ∀ cache, stored = some cache → Sound runtime calls cache) (tool : String) :
    (readRecordCache runtime stored tool).tool = tool ∧
      Sound runtime calls (readRecordCache runtime stored tool) := by
  unfold readRecordCache
  split
  · exact ⟨rfl, fun _ _ => nofun⟩
  · next cache =>
    split
    · next valid =>
      rw [Bool.and_eq_true, decide_eq_true_iff] at valid
      exact ⟨valid.1, sound cache rfl⟩
    · exact ⟨rfl, fun _ _ => nofun⟩

/-- The records of a file are those of a cached entry, or those of its chunks. -/
theorem fileRecords_cases {cache : Option (RecordCache Num)} {blobs : List Bytes} {file : File}
    {records : List (UsageRecord Num)}
    (found : fileRecords scanner cache blobs file = some records) :
    (∃ held entry, cache = some held ∧ (String.ofList file.path, entry) ∈ held.files ∧
        entry.fingerprint = fileFingerprint file.info ∧ entry.records = records) ∨
      ∃ bytes, file.content = some bytes ∧
        records = collectRecordsFromChunks scanner (fileTextChunks blobs) := by
  rw [fileRecords, Option.or_eq_some_iff] at found
  rcases found with hit | ⟨-, read⟩
  · rw [cachedRecords, Option.map_eq_some_iff] at hit
    obtain ⟨entry, kept, same⟩ := hit
    rw [Option.filter_eq_some_iff, decide_eq_true_iff] at kept
    obtain ⟨held, isHeld, got⟩ := Option.bind_eq_some_iff.mp kept.1
    exact .inl ⟨held, entry, isHeld, Members.mem_of_get got, kept.2, same⟩
  · obtain ⟨bytes, content, same⟩ := Option.map_eq_some_iff.mp read
    exact .inr ⟨bytes, content, same.symm⟩

theorem visitFile_sound {calls : List AsyncCall} {call : AsyncCall}
    {cache : Option (RecordCache Num)} {reading : Reading Num} {file : File} (among : call ∈ calls)
    (cuts : Cuts call) (isReader : scannerOf runtime call.toolName = some (scanner, rootName))
    (lists : Lists runtime call file)
    (held : ∀ held, cache = some held → held.tool = call.toolName ∧ Sound runtime calls held)
    (sound : Sound runtime calls ⟨call.toolName, reading.nextFiles⟩) :
    Sound runtime calls ⟨call.toolName, (visitFile scanner call cache reading file).nextFiles⟩ := by
  unfold visitFile
  split
  · exact sound
  · next records found =>
    dsimp only
    split
    · intro key entry member
      rcases Members.mem_set member with same | before
      · cases same
        rcases fileRecords_cases found with ⟨cached, entry, isCached, there, fingerprint, same⟩ |
          ⟨bytes, content, same⟩
        · obtain ⟨tool, cachedSound⟩ := held cached isCached
          have entrySound := cachedSound _ _ there
          rw [tool] at entrySound
          rw [← fingerprint, ← same]
          exact entrySound
        · refine ⟨call, among, file, bytes, scanner, rootName, lists, isReader, rfl, content, rfl, ?_⟩
          rw [same, collectRecordsFromChunks_fileTextChunks, cuts file bytes content]
      · exact sound key entry before
    · exact sound

theorem readFiles_sound {calls : List AsyncCall} {call : AsyncCall}
    {cache : Option (RecordCache Num)} {files : List File} (among : call ∈ calls)
    (cuts : Cuts call) (isReader : scannerOf runtime call.toolName = some (scanner, rootName))
    (lists : ∀ file ∈ files, Lists runtime call file)
    (held : ∀ held, cache = some held → held.tool = call.toolName ∧ Sound runtime calls held) :
    Sound runtime calls ⟨call.toolName, (readFiles scanner call cache files).nextFiles⟩ := by
  rw [readFiles]
  have all : ∀ reading : Reading Num, Sound runtime calls ⟨call.toolName, reading.nextFiles⟩ →
      Sound runtime calls ⟨call.toolName,
        (files.foldl (visitFile scanner call cache) reading).nextFiles⟩ := by
    induction files with
    | nil => exact fun _ sound => sound
    | cons file files inductionHypothesis =>
      rw [List.forall_mem_cons] at lists
      intro reading sound
      exact inductionHypothesis lists.2 _ (visitFile_sound among cuts isReader lists.1 held sound)
  exact all _ fun _ _ => nofun

/-- Whatever the calls before have left in the cache file is sound. -/
theorem cacheAfter_sound {earlier : List (AsyncCall × Bool)}
    (cuts : ∀ call ∈ earlier.map Prod.fst, Cuts call) (cache : RecordCache Num)
    (left : cacheAfter runtime earlier = some cache) :
    Sound runtime (earlier.map Prod.fst) cache := by
  induction earlier generalizing cache with
  | nil => cases left
  | cons last earlier inductionHypothesis =>
    obtain ⟨call, writes⟩ := last
    rw [List.map_cons, List.forall_mem_cons] at cuts
    rw [List.map_cons]
    have before (cache : RecordCache Num) (left : cacheAfter runtime earlier = some cache) :
        Sound runtime (call :: earlier.map Prod.fst) cache :=
      (inductionHypothesis cuts.2 cache left).mono (List.subset_cons_self _ _)
    have here (written : RecordCache Num)
        (wrote : (readIdentityLocalSpendAsync runtime call (some (cacheAfter runtime earlier))).2 =
          some written) : Sound runtime (call :: earlier.map Prod.fst) written := by
      unfold readIdentityLocalSpendAsync at wrote
      split at wrote
      · cases wrote
      next scanner rootName isReader =>
      split at wrote
      · cases wrote
      next entries sessions =>
      dsimp only at wrote
      split at wrote
      · cases wrote
        refine readFiles_sound List.mem_cons_self cuts.1 isReader
          (fun file member => ⟨scanner, rootName, entries, isReader, sessions, member⟩) ?_
        intro held isHeld
        rw [Option.map_some] at isHeld
        cases isHeld
        exact readRecordCache_sound before call.toolName
      · cases wrote
    unfold cacheAfter at left
    cases wrote : (readIdentityLocalSpendAsync runtime call (some (cacheAfter runtime earlier))).2 with
    | none =>
      rw [wrote] at left
      exact before cache left
    | some written =>
      rw [wrote] at left
      cases writes with
      | true =>
        cases left
        exact here cache wrote
      | false => exact before cache left

/-! ### The readers agree -/

/-- A file with the state that a call before has seen has its content. -/
def Settled (runtime : SpendRuntime Num) (earlier : List AsyncCall) (now : AsyncCall) : Prop :=
  ∀ call ∈ earlier, ∀ before, Lists runtime call before → ∀ after, Lists runtime now after →
    before.path = after.path → before.info = after.info → before.content = after.content

theorem fileRecords_eq {earlier : List AsyncCall} {now : AsyncCall}
    {cache : Option (RecordCache Num)} {file : File} (cuts : Cuts now)
    (isReader : scannerOf runtime now.toolName = some (scanner, rootName))
    (settled : Settled runtime earlier now) (lists : Lists runtime now file)
    (held : ∀ held, cache = some held → held.tool = now.toolName ∧ Sound runtime earlier held) :
    fileRecords scanner cache (now.blobs file) file =
      file.content.map (streamedRecords scanner) := by
  cases found : fileRecords scanner cache (now.blobs file) file with
  | none =>
    rw [fileRecords, Option.or_eq_none_iff, Option.map_eq_none_iff] at found
    rw [found.2]
    rfl
  | some records =>
    rcases fileRecords_cases found with ⟨cached, entry, isCached, there, fingerprint, same⟩ |
      ⟨bytes, content, same⟩
    · obtain ⟨tool, sound⟩ := held cached isCached
      obtain ⟨call, among, before, bytes, reader, rootName', listed, isReader', path, content,
        stamp, entryRecords⟩ := sound _ _ there
      rw [tool, isReader] at isReader'
      cases isReader'
      have sameContent := settled call among before listed file lists (String.ofList_inj.mp path)
        (fileFingerprint_injective (stamp.symm.trans fingerprint))
      rw [← sameContent, content, Option.map_some, ← same, entryRecords]
    · rw [content, Option.map_some, same, collectRecordsFromChunks_fileTextChunks,
        cuts file bytes content]

theorem visitFile_records {call : AsyncCall} {cache : Option (RecordCache Num)} {file : File}
    (found : fileRecords scanner cache (call.blobs file) file =
      file.content.map (streamedRecords scanner)) (reading : Reading Num) :
    (visitFile scanner call cache reading file).records =
      reading.records ++ streamedPeriodRecords scanner call.periodStart file := by
  rw [visitFile, streamedPeriodRecords, found]
  cases file.content with
  | none => exact (List.append_nil _).symm
  | some bytes => rfl

theorem readFiles_records {call : AsyncCall} {cache : Option (RecordCache Num)} {files : List File}
    (found : ∀ file ∈ files, fileRecords scanner cache (call.blobs file) file =
      file.content.map (streamedRecords scanner)) :
    (readFiles scanner call cache files).records =
      files.flatMap (streamedPeriodRecords scanner call.periodStart) := by
  have all : ∀ reading : Reading Num,
      (files.foldl (visitFile scanner call cache) reading).records =
        reading.records ++ files.flatMap (streamedPeriodRecords scanner call.periodStart) := by
    induction files with
    | nil => exact fun reading => (List.append_nil _).symm
    | cons file files inductionHypothesis =>
      rw [List.forall_mem_cons] at found
      intro reading
      rw [List.foldl_cons, inductionHypothesis found.2, visitFile_records found.1,
        List.append_assoc, List.flatMap_cons]
  exact (all _).trans (List.nil_append _)

end Calls

/-- What the cache file of a call holds, if the call has one. -/
def storedFor {Num : Type} (runtime : SpendRuntime Num) (earlier : List (AsyncCall × Bool))
    (hasCache : Bool) : Option (Option (RecordCache Num)) :=
  if hasCache then some (cacheAfter runtime earlier) else none

/-- The records that a call aggregates. -/
def aggregatedAsync {Num : Type} (runtime : SpendRuntime Num) (scanner : Scanner Num)
    (now : AsyncCall) (files : List File) (stored : Option (Option (RecordCache Num))) :
    List (UsageRecord Num) :=
  (readFiles scanner now (stored.map (readRecordCache runtime · now.toolName)) files).records

/-- After any calls, and however files are cut into buffers, the asynchronous reader aggregates the
records of the synchronous one exactly if no listed file begins with a byte order mark before a
line that matters; then the spend is the same. -/
theorem readIdentityLocalSpendAsync_refines_iff {Num : Type} (runtime : SpendRuntime Num)
    (earlier : List (AsyncCall × Bool)) (now : AsyncCall) (hasCache : Bool) (scanner : Scanner Num)
    (rootName : String) (entries : Entries)
    (isReader : scannerOf runtime now.toolName = some (scanner, rootName))
    (sessions : now.sessions = some entries) (cuts : ∀ call ∈ now :: earlier.map Prod.fst, Cuts call)
    (settled : Settled runtime (earlier.map Prod.fst) now) :
    (aggregatedAsync runtime scanner now (now.files rootName entries)
          (storedFor runtime earlier hasCache) =
        aggregated scanner now.periodStart (now.files rootName entries) ↔
      ∀ file ∈ now.files rootName entries,
        ¬ MarkMatters (effectOf runtime now.toolName) now.periodStart file) ∧
    (aggregatedAsync runtime scanner now (now.files rootName entries)
          (storedFor runtime earlier hasCache) =
        aggregated scanner now.periodStart (now.files rootName entries) →
      { (readIdentityLocalSpendAsync runtime now (storedFor runtime earlier hasCache)).1 with
          usdSince := none } =
        readIdentityLocalSpend runtime now.toolName now.configDir now.periodStart now.sessions) := by
  obtain ⟨isEffect, lawful⟩ := scanner_eq runtime isReader
  rw [List.forall_mem_cons] at cuts
  have lists (file : File) (member : file ∈ now.files rootName entries) : Lists runtime now file :=
    ⟨scanner, rootName, entries, isReader, sessions, member⟩
  have held : ∀ held,
      (storedFor runtime earlier hasCache).map (readRecordCache runtime · now.toolName) = some held →
        held.tool = now.toolName ∧ Sound runtime (earlier.map Prod.fst) held := by
    intro held isHeld
    obtain ⟨stored, isStored, rfl⟩ := Option.map_eq_some_iff.mp isHeld
    refine readRecordCache_sound (fun cache left => ?_) now.toolName
    cases hasCache with
    | false => cases isStored
    | true =>
      cases isStored
      exact cacheAfter_sound cuts.2 cache left
  have async := readFiles_records fun file member =>
    fileRecords_eq cuts.1 isReader settled (lists file member) held
  constructor
  · rw [aggregatedAsync, async, eq_comm, aggregated]
    subst isEffect
    rw [List.flatMap_eq_iff_of_length_le _ fun file _ => (periodRecords_streamed lawful file).2]
    exact forall₂_congr fun file _ => (periodRecords_streamed lawful file).1
  · intro same
    rw [readIdentityLocalSpendAsync, readIdentityLocalSpend, isReader, sessions]
    dsimp only
    rw [aggregatedAsync, AsyncCall.files] at same
    rw [AsyncCall.files, same]
    rfl

def sampleCall (sessions : Entries) : AsyncCall where
  toolName := "codex"
  configDir := "/h".toList
  periodStart := samplePeriod
  sessions := some sessions
  usdSinceMs := none
  blobs file := [file.content.getD []]

/-- The session of the first of September, with a byte order mark before its only line. -/
def markedSessions : Entries :=
  [("2026".toList, .directory [("09".toList, .directory [("01".toList, .directory
    [("rollout.jsonl".toList, .file ⟨1, 1, 203, 1788222601000000000, 1788222601000000000⟩
      (some (Utf8.byteOrderMark ++ Utf8.encode sampleLine.toList)))])])])]

theorem readIdentityLocalSpendAsync_readsMarked :
    (readIdentityLocalSpendAsync sampleRuntime (sampleCall markedSessions) none).1.messages = 1 ∧
      (readIdentityLocalSpend sampleRuntime "codex" "/h".toList samplePeriod
        (some markedSessions)).messages = 0 := by
  have characters : sampleLine.toList = _ :=
    toList_append_append String.toList_ofList String.toList_ofList String.toList_ofList
  unfold markedSessions
  rewrite [characters]
  decide +kernel

theorem cuts_sampleCall (sessions : Entries) : Cuts (sampleCall sessions) := by
  intro file bytes content
  change [file.content.getD []].flatten = bytes
  rw [content]
  exact List.append_nil _

theorem content_of_lists {file : File}
    (lists : Lists sampleRuntime (sampleCall (sampleSessions "09" "01")) file) :
    file.content = some (Utf8.encode sampleLine.toList) := by
  have characters : sampleLine.toList = _ :=
    toList_append_append String.toList_ofList String.toList_ofList String.toList_ofList
  have all : ((sampleCall (sampleSessions "09" "01")).files "sessions"
      (sampleSessions "09" "01")).all (fun file =>
        file.content = some (Utf8.encode sampleLine.toList)) = true := by
    unfold sampleSessions
    rewrite [characters]
    decide +kernel
  obtain ⟨scanner, rootName, entries, isReader, sessions, member⟩ := lists
  cases isReader
  cases sessions
  exact of_decide_eq_true (List.all_eq_true.mp all file member)

theorem readIdentityLocalSpendAsync_refines_again :
    aggregatedAsync sampleRuntime (pushCodex sampleRuntime) (sampleCall (sampleSessions "09" "01"))
        ((sampleCall (sampleSessions "09" "01")).files "sessions" (sampleSessions "09" "01"))
        (storedFor sampleRuntime [(sampleCall (sampleSessions "09" "01"), true)] true) =
      aggregated (pushCodex sampleRuntime) samplePeriod
        ((sampleCall (sampleSessions "09" "01")).files "sessions" (sampleSessions "09" "01")) := by
  refine (readIdentityLocalSpendAsync_refines_iff sampleRuntime
    [(sampleCall (sampleSessions "09" "01"), true)] (sampleCall (sampleSessions "09" "01")) true
    (pushCodex sampleRuntime) "sessions" (sampleSessions "09" "01") rfl rfl ?_ ?_).1.mpr ?_
  · exact fun call member => by
      rw [List.map_cons, List.map_nil, List.mem_pair] at member
      rcases member with rfl | rfl <;> exact cuts_sampleCall _
  · intro call member before listed after lists _ _
    rw [List.map_cons, List.map_nil, List.mem_singleton] at member
    subst member
    rw [content_of_lists listed, content_of_lists lists]
  · rintro file member ⟨bytes, rest, content, decodes, -⟩
    have lists : Lists sampleRuntime (sampleCall (sampleSessions "09" "01")) file :=
      ⟨_, _, _, rfl, rfl, member⟩
    have same := Option.some.inj ((content_of_lists lists).symm.trans content)
    have characters : sampleLine.toList = _ :=
      toList_append_append String.toList_ofList String.toList_ofList String.toList_ofList
    have first : (Utf8.decodeFrom .start (Utf8.encode sampleLine.toList)).head? = some '\x7b' := by
      rewrite [characters]
      decide +kernel
    rw [same, decodes] at first
    cases first

end AiSwitcher.LocalSpend
