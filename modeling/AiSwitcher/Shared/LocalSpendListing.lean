/-
This file proves when the walk over a session tree leaves out nothing that counts. A file that was
last written before the period holds no record from inside it, so the pruning by modification
time is harmless; the pruning by the date in a path is not, because a session is appended to after
the day of its directory. So every record of the period is counted, once and in order, exactly if
no directory that is skipped by its date has one.
-/

import AiSwitcher.Library.Lists
import AiSwitcher.Shared.LocalSpend

namespace AiSwitcher.LocalSpend

open JavaScript JsonText

/-! ### All logs of a tree -/

mutual

/-- The session logs of an entry, and whether a directory above them is skipped by its date. -/
def logsNode (periodStart : PeriodStart) (prunePathDate : Bool) (dir entry : List Char) (level : ℕ)
    (skipped : Bool) : Node → List (File × Bool)
  | .unknown => []
  | .file info content =>
      if isSessionLog entry then [(⟨join dir entry, info, content⟩, skipped)] else []
  | .directory entries => logs periodStart prunePathDate (join dir entry) level skipped entries

def logs (periodStart : PeriodStart) (prunePathDate : Bool) (dir : List Char) (depth : ℕ)
    (skipped : Bool) : Entries → List (File × Bool)
  | [] => []
  | (entry, node) :: rest =>
      logsNode periodStart prunePathDate dir entry (depth + 1)
          (skipped || (prunePathDate && isDatePruned periodStart dir entry (depth + 1))) node ++
        logs periodStart prunePathDate dir depth skipped rest

end

/-- Whether the walk comes to a log and takes it. -/
def isListed (periodStart : PeriodStart) (log : File × Bool) : Bool :=
  !log.2 && isFresh periodStart log.1.info

def listed (periodStart : PeriodStart) (found : List (File × Bool)) : List File :=
  (found.filter (isListed periodStart)).map Prod.fst

theorem listed_append (periodStart : PeriodStart) (first second : List (File × Bool)) :
    listed periodStart (first ++ second) = listed periodStart first ++ listed periodStart second := by
  rw [listed, List.filter_append, List.map_append]
  rfl

variable {periodStart : PeriodStart} {prunePathDate : Bool}

mutual

theorem listed_logsNode (dir entry : List Char) (level : ℕ) (skipped : Bool) (node : Node) :
    listed periodStart (logsNode periodStart prunePathDate dir entry level skipped node) =
      if skipped then [] else walkNode periodStart prunePathDate dir entry level node := by
  cases node with
  | unknown =>
    rw [logsNode, walkNode, ite_self]
    rfl
  | file info content =>
    rw [logsNode, walkNode]
    cases skipped <;> cases fresh : isFresh periodStart info <;> cases log : isSessionLog entry <;>
      simp [listed, isListed, fresh]
  | directory entries =>
    rw [logsNode, walkNode, listed_logs]

theorem listed_logs (dir : List Char) (depth : ℕ) (skipped : Bool) (entries : Entries) :
    listed periodStart (logs periodStart prunePathDate dir depth skipped entries) =
      if skipped then [] else walk periodStart prunePathDate dir depth entries := by
  match entries with
  | [] =>
    rw [logs, walk, ite_self]
    rfl
  | (entry, node) :: rest =>
    rw [logs, walk, listed_append, listed_logsNode, listed_logs]
    cases skipped with
    | true => rfl
    | false => rw [Bool.false_or, if_neg Bool.false_ne_true, if_neg Bool.false_ne_true]

end

mutual

theorem skipped_logsNode {dir entry : List Char} {level : ℕ} {skipped : Bool} {log : File × Bool}
    (node : Node) (member : log ∈ logsNode periodStart false dir entry level skipped node) :
    log.2 = skipped := by
  cases node with
  | unknown =>
    rw [logsNode] at member
    cases member
  | file info content =>
    rw [logsNode] at member
    split at member
    · rw [List.mem_singleton.mp member]
    · cases member
  | directory entries =>
    rw [logsNode] at member
    exact skipped_logs entries member

theorem skipped_logs {dir : List Char} {depth : ℕ} {skipped : Bool} {log : File × Bool}
    (entries : Entries) (member : log ∈ logs periodStart false dir depth skipped entries) :
    log.2 = skipped := by
  match entries with
  | [] =>
    rw [logs] at member
    cases member
  | (entry, node) :: rest =>
    rw [logs, Bool.false_and, Bool.or_false] at member
    rcases List.mem_append.mp member with here | there
    · exact skipped_logsNode node here
    · exact skipped_logs rest there

end

/-! ### Records of the period -/

section Records

variable {Num : Type} (scanner : Scanner Num)

/-- All records of a file, if it can be read. -/
def recordsIn (file : File) : List (UsageRecord Num) := (readText file).elim [] (recordsOf scanner)

/-- Whether a record has a timestamp in the period. -/
def isInPeriod (periodStart : PeriodStart) (usage : UsageRecord Num) : Bool :=
  usage.atMs.any fun atMs => (periodStart.time : ℚ) ≤ atMs

/-- No file was last written before its newest record. -/
def Dated (found : List (File × Bool)) : Prop :=
  ∀ log ∈ found, ∀ usage ∈ recordsIn scanner log.1,
    (usage.atMs.all fun atMs => atMs ≤ log.1.info.mtimeMs) = true

variable {scanner}

theorem isCounted_of_isInPeriod {usage : UsageRecord Num}
    (within : isInPeriod periodStart usage = true) : isCounted periodStart.time usage = true := by
  unfold isInPeriod at within
  unfold isCounted
  cases stamp : usage.atMs with
  | none => rfl
  | some atMs =>
    rw [stamp] at within
    exact within

theorem filter_periodRecords (file : File) :
    (periodRecords scanner periodStart file).filter (isInPeriod periodStart) =
      (recordsIn scanner file).filter (isInPeriod periodStart) := by
  rw [periodRecords, recordsIn]
  cases readText file with
  | none => rfl
  | some text =>
    dsimp only [Option.elim_some]
    rw [filterPeriod, List.filter_filter]
    refine List.filter_congr fun usage _ => ?_
    rw [Bool.eq_iff_iff, Bool.and_eq_true]
    exact and_iff_left_of_imp isCounted_of_isInPeriod

/-- A file that is not fresh has no record in the period. -/
theorem filter_eq_nil_of_stale {found : List (File × Bool)} (dated : Dated scanner found)
    {log : File × Bool} (member : log ∈ found) (stale : isFresh periodStart log.1.info = false) :
    (recordsIn scanner log.1).filter (isInPeriod periodStart) = [] := by
  refine List.filter_eq_nil_iff.mpr fun usage among within => ?_
  obtain ⟨atMs, stamp, late⟩ := (Option.any_eq_true _ _).mp within
  have early := dated log member usage among
  rw [stamp, Option.all_some, decide_eq_true_iff] at early
  rw [isFresh, decide_eq_false_iff_not] at stale
  exact stale ((of_decide_eq_true late).trans early)

theorem flatMap_filter {Item Part : Type} (keep : Item → Bool) (parts : Item → List Part)
    (items : List Item) :
    (items.filter keep).flatMap parts = items.flatMap fun item => if keep item then parts item else [] := by
  induction items with
  | nil => rfl
  | cons item rest inductionHypothesis =>
    rw [List.flatMap_cons, ← inductionHypothesis]
    cases kept : keep item with
    | true =>
      rw [List.filter_cons_of_pos kept, List.flatMap_cons]
      rfl
    | false =>
      rw [List.filter_cons_of_neg (Bool.eq_false_iff.mp kept)]
      rfl

/-- Leaving out parts of a concatenation leaves it the same exactly if they are empty. -/
theorem flatMap_filter_eq_iff {Item Part : Type} (keep : Item → Bool) (parts : Item → List Part)
    (items : List Item) :
    (items.filter keep).flatMap parts = items.flatMap parts ↔
      ∀ item ∈ items, keep item = false → parts item = [] := by
  rw [flatMap_filter, List.flatMap_eq_iff_of_length_le]
  · refine forall₂_congr fun item _ => ?_
    cases keep item with
    | true => exact ⟨nofun, fun _ => rfl⟩
    | false => exact ⟨fun same _ => same.symm, fun empty => (empty rfl).symm⟩
  · intro item _
    split
    · exact Nat.le_refl _
    · exact Nat.zero_le _

/-- The records of the period that are aggregated are those of all logs, each once and in order,
exactly if no log that the walk skips by date has one. -/
theorem filter_aggregated_eq_iff {found : List (File × Bool)} (dated : Dated scanner found) :
    (aggregated scanner periodStart (listed periodStart found)).filter (isInPeriod periodStart) =
        (found.flatMap fun log => recordsIn scanner log.1).filter (isInPeriod periodStart) ↔
      ∀ log ∈ found, log.2 = true →
        ∀ usage ∈ recordsIn scanner log.1, isInPeriod periodStart usage = false := by
  rw [aggregated, listed, List.flatMap_map, List.filter_flatMap, List.filter_flatMap]
  simp only [filter_periodRecords]
  rw [flatMap_filter_eq_iff (isListed periodStart)
    (fun log => (recordsIn scanner log.1).filter (isInPeriod periodStart))]
  refine forall₂_congr fun log member => ?_
  have empty : (recordsIn scanner log.1).filter (isInPeriod periodStart) = [] ↔
      ∀ usage ∈ recordsIn scanner log.1, isInPeriod periodStart usage = false := by
    simp only [List.filter_eq_nil_iff, Bool.not_eq_true]
  rw [← empty, isListed]
  constructor
  · exact fun without skipped => without (by rw [skipped]; rfl)
  · intro without unlisted
    cases skipped : log.2 with
    | true => exact without skipped
    | false =>
      rw [skipped, Bool.not_false, Bool.true_and] at unlisted
      exact filter_eq_nil_of_stale dated member unlisted

end Records

/-! ### The reader -/

/-- The session logs of an identity, and which of them the walk skips by date. -/
def sessionLogs (toolName : String) (root : List Char) (periodStart : PeriodStart)
    (entries : Entries) : List (File × Bool) :=
  logs periodStart (toolName = "codex") root 0 false entries

/-- The files that the reader reads. -/
def filesRead (toolName : String) (root : List Char) (periodStart : PeriodStart)
    (entries : Entries) : List File :=
  listRecentFiles periodStart (toolName = "codex") root entries

/-- Every record of the period is aggregated exactly once, and nothing else that has a timestamp
in the period. -/
def CountsEach {Num : Type} (scanner : Scanner Num) (toolName : String) (root : List Char)
    (periodStart : PeriodStart) (entries : Entries) : Prop :=
  (aggregated scanner periodStart (filesRead toolName root periodStart entries)).filter
      (isInPeriod periodStart) =
    ((sessionLogs toolName root periodStart entries).flatMap fun log =>
      recordsIn scanner log.1).filter (isInPeriod periodStart)

/-- The spend of a period counts every record of the period exactly once if and only if no log in
a directory that is skipped by its date has one; with Claude none is skipped. -/
theorem localSpend_counts_iff {Num : Type} (runtime : SpendRuntime Num) (toolName rootName : String)
    (scanner : Scanner Num) (configDir : List Char) (periodStart : PeriodStart) (entries : Entries)
    (isReader : scannerOf runtime toolName = some (scanner, rootName))
    (dated : Dated scanner
      (sessionLogs toolName (join configDir rootName.toList) periodStart entries)) :
    readIdentityLocalSpend runtime toolName configDir periodStart (some entries) =
        reduceLocalSpendRead runtime
          (aggregated scanner periodStart
            (filesRead toolName (join configDir rootName.toList) periodStart entries))
          (filesRead toolName (join configDir rootName.toList) periodStart entries).length none ∧
      (CountsEach scanner toolName (join configDir rootName.toList) periodStart entries ↔
        ∀ log ∈ sessionLogs toolName (join configDir rootName.toList) periodStart entries,
          log.2 = true → ∀ usage ∈ recordsIn scanner log.1, isInPeriod periodStart usage = false) ∧
      (toolName = "claude" →
        CountsEach scanner toolName (join configDir rootName.toList) periodStart entries) := by
  have same : listed periodStart
      (sessionLogs toolName (join configDir rootName.toList) periodStart entries) =
        filesRead toolName (join configDir rootName.toList) periodStart entries :=
    listed_logs _ _ false entries
  have counts : CountsEach scanner toolName (join configDir rootName.toList) periodStart entries ↔
      ∀ log ∈ sessionLogs toolName (join configDir rootName.toList) periodStart entries,
        log.2 = true → ∀ usage ∈ recordsIn scanner log.1, isInPeriod periodStart usage = false := by
    rw [CountsEach, ← same]
    exact filter_aggregated_eq_iff dated
  refine ⟨?_, counts, fun isClaude => counts.mpr fun log member skipped => ?_⟩
  · rw [readIdentityLocalSpend, isReader]
    rfl
  · subst isClaude
    have none := skipped_logs entries member
    rw [skipped] at none
    cases none

/-! ### A session that outlives its day -/

/-- What the platform computes for the line below, with whole numbers. -/
def sampleRuntime : SpendRuntime ℤ where
  number digits := .finite (Nat.ofDigitChars 10 digits 0)
  dateParse value :=
    if isText (some value) "2026-09-01T00:30:00.000Z" then some 1788222600000 else none
  localDateKey _ := "2026-09-01"
  ofValue
    | .num (.finite value) => value.num
    | _ => 0
  min := Min.min
  max := Max.max
  add := (· + ·)
  sub := (· - ·)
  isFiniteNumber _ := true
  sameModel first second := first.asString? = second.asString?
  estimateBedrockTokenCost _ _ _ _ _ := none
  fallbackCost input output cacheRead cacheWrite := input + output + cacheRead + cacheWrite

def sampleLine : String :=
  "\x7b\"timestamp\":\"2026-09-01T00:30:00.000Z\",\"type\":\"event_msg\",\"payload\":\x7b" ++
    "\"type\":\"token_count\",\"info\":\x7b\"last_token_usage\":\x7b\"input_tokens\":1000," ++
    "\"cached_input_tokens\":200,\"output_tokens\":50\x7d\x7d\x7d\x7d\n"

theorem toList_append_append {first second third : String} {before between behind : List Char}
    (isFirst : first.toList = before) (isSecond : second.toList = between)
    (isThird : third.toList = behind) :
    (first ++ second ++ third).toList = before ++ between ++ behind := by
  rw [String.toList_append, String.toList_append, isFirst, isSecond, isThird]

/-- The first of September. -/
def samplePeriod : PeriodStart := ⟨2026, 9, 1, 1788220800000⟩

/-- One session, in the directory of a day, that was written to on the first of September. -/
def sampleSessions (month day : String) : Entries :=
  [("2026".toList, .directory [(month.toList, .directory [(day.toList, .directory
    [("rollout.jsonl".toList, .file ⟨1, 1, 200, 1788222601000000000, 1788222601000000000⟩
      (some (Utf8.encode sampleLine.toList)))])])])]

theorem localSpend_missesRecord :
    Dated (pushCodex sampleRuntime)
        (sessionLogs "codex" "/h/sessions".toList samplePeriod (sampleSessions "08" "31")) ∧
      ¬ CountsEach (pushCodex sampleRuntime) "codex" "/h/sessions".toList samplePeriod
        (sampleSessions "08" "31") := by
  have characters : sampleLine.toList = _ :=
    toList_append_append String.toList_ofList String.toList_ofList String.toList_ofList
  have fewer : ((aggregated (pushCodex sampleRuntime) samplePeriod
      (filesRead "codex" "/h/sessions".toList samplePeriod (sampleSessions "08" "31"))).filter
        (isInPeriod samplePeriod)).length ≠
      (((sessionLogs "codex" "/h/sessions".toList samplePeriod (sampleSessions "08" "31")).flatMap
        fun log => recordsIn (pushCodex sampleRuntime) log.1).filter
          (isInPeriod samplePeriod)).length := by
    unfold sampleSessions
    rewrite [characters]
    decide +kernel
  refine ⟨?_, fun same => fewer (congrArg List.length same)⟩
  unfold Dated sampleSessions
  rewrite [characters]
  decide +kernel

theorem localSpend_counts_today :
    CountsEach (pushCodex sampleRuntime) "codex" "/h/sessions".toList samplePeriod
      (sampleSessions "09" "01") := by
  have characters : sampleLine.toList = _ :=
    toList_append_append String.toList_ofList String.toList_ofList String.toList_ofList
  refine (localSpend_counts_iff sampleRuntime "codex" "sessions" _ "/h".toList samplePeriod _ rfl
    ?_).2.1.mpr ?_
  · unfold Dated sampleSessions
    rewrite [characters]
    decide +kernel
  · unfold sampleSessions
    rewrite [characters]
    decide +kernel

end AiSwitcher.LocalSpend
