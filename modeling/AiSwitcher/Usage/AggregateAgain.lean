/-
This file settles when aggregating rows that are aggregated already, together with further rows,
gives what aggregating all rows at once gives. A merged row does not say any more which
client it came from: it no longer covers the rows that came through that client, and is no
longer covered. The condition speaks of where the rows come from, and is exact for them: where it
fails, some amounts of rows from the same places are counted twice.
-/

import AiSwitcher.Usage.AggregateTotals

namespace AiSwitcher.UsageRows

open SpendValue (plainCase unitsOf)

variable {runtime : UsageRuntime} {Entry Rest : Type}
variable {coverage : List (ToolName × IdentityName)} {results : List (UsageResult Entry Rest)}

/-! ### Where rows come from -/

/-- Where a row comes from, whatever amounts it has. -/
structure Provenance where
  provider : Provider
  identity : IdentityName
  sourceTool : Option ToolName
  nativeCoverageTool : Option ToolName
  sourceOnlyError : Bool
  reports : Bool
  onlyError : sourceOnlyError = true → reports = false ∧ nativeCoverageTool = none

def UsageResult.provenance (result : UsageResult Entry Rest) : Provenance where
  provider := result.provider
  identity := result.identity
  sourceTool := result.sourceTool
  nativeCoverageTool := result.nativeCoverageTool
  sourceOnlyError := result.sourceOnlyError
  reports := result.report.isSome
  onlyError failed := (result.onlyError failed).imp_left fun absent => by rw [absent]; rfl

namespace Provenance

/-- What the rows cover. -/
def covers (rows : List Provenance) : List (ToolName × IdentityName) :=
  rows.filterMap fun row => match row.sourceTool with
    | some tool =>
        if row.reports && (tool = .claude || tool = .codex) then some (tool, row.identity) else none
    | none => none

def isCovered (coverage : List (ToolName × IdentityName)) (row : Provenance) : Bool :=
  row.nativeCoverageTool.any fun tool => coverage.contains (tool, row.identity)

def rowKey (runtime : UsageRuntime) (row : Provenance) : Option RowKey :=
  if row.sourceOnlyError then some (.sourceOnlyError row.sourceTool row.identity)
  else (canonicalUsageProvider runtime row.provider).map (.group · row.identity)

/-- The rows that make a group with the given one, itself among them. -/
def companions (runtime : UsageRuntime) (rows : List Provenance) (row : Provenance) :
    List Provenance :=
  rows.filter fun other =>
    !isCovered (covers rows) other && (rowKey runtime other = rowKey runtime row)

/-- The row is not left out, and nothing is merged with it. -/
def isLone (runtime : UsageRuntime) (rows : List Provenance) (row : Provenance) : Bool :=
  !isCovered (covers rows) row && (companions runtime rows row).length = 1

/-- When two aggregations give what one gives. The provider of a group is its own canonical form; a
merged row holds nothing that the further rows cover; and what covers a further row was not merged,
or is among the further rows itself. -/
structure Repeatable (runtime : UsageRuntime) (first rest : List Provenance) : Prop where
  settled : ∀ row ∈ first, isCovered (covers (first ++ rest)) row = false →
    row.sourceOnlyError = false → ∀ provider,
      canonicalUsageProvider runtime row.provider = some provider →
        canonicalUsageProvider runtime provider = some provider
  merged : ∀ row ∈ first, isCovered (covers first) row = false → row.sourceOnlyError = false →
    isLone runtime first row = false → isCovered (covers rest) row = false
  reporting : ∀ row ∈ rest, isCovered (covers first) row = true →
    isCovered (covers (first.filter (isLone runtime first)) ++ covers rest) row = true

end Provenance

theorem covers_map (rows : List (UsageResult Entry Rest)) :
    Provenance.covers (rows.map UsageResult.provenance) = nativeCoverage rows :=
  List.filterMap_map

theorem covers_append (first second : List Provenance) :
    Provenance.covers (first ++ second) = Provenance.covers first ++ Provenance.covers second :=
  List.filterMap_append

theorem isCovered_append (first second : List (ToolName × IdentityName))
    (row : UsageResult Entry Rest) :
    isCovered (first ++ second) row = (isCovered first row || isCovered second row) := by
  rw [isCovered, isCovered, isCovered]
  cases row.nativeCoverageTool with
  | none => rfl
  | some tool =>
    rw [Option.any_some, Option.any_some, Option.any_some, Bool.eq_iff_iff, Bool.or_eq_true,
      List.contains_iff_mem, List.contains_iff_mem, List.contains_iff_mem, List.mem_append]

theorem isCovered_mono {first second : List (ToolName × IdentityName)}
    (grows : ∀ entry ∈ first, entry ∈ second) {row : UsageResult Entry Rest}
    (covered : isCovered first row = true) : isCovered second row = true := by
  rw [isCovered, Option.any_eq_true] at covered ⊢
  obtain ⟨tool, isTool, inFirst⟩ := covered
  exact ⟨tool, isTool, List.contains_iff_mem.mpr (grows _ (List.contains_iff_mem.mp inFirst))⟩

theorem nativeCoverage_append (first second : List (UsageResult Entry Rest)) :
    nativeCoverage (first ++ second) = nativeCoverage first ++ nativeCoverage second :=
  List.filterMap_append

/-- The rows of a key that two or more rows make has lost where they came from. -/
theorem provenance_merged {provider : Provider} {identity : IdentityName}
    {rows : List (UsageResult Entry Rest)} {held : UsageResult Entry Rest}
    (gathered : Grouping.gather startRow joinRow (.group provider identity) rows = some held)
    (several : rows.length ≠ 1) : held.sourceTool = none ∧ held.nativeCoverageTool = none := by
  cases rows using List.reverseRecOn with
  | nil => cases gathered
  | append_singleton rows row =>
    rw [Grouping.gather_concat] at gathered
    obtain rfl := Option.some.inj gathered
    cases rows with
    | nil => exact absurd rfl several
    | cons first rest => exact ⟨rfl, rfl⟩

/-! ### The rows of the first aggregation -/

section Half

variable {rows more half : List (UsageResult Entry Rest)}

theorem mem_aggregated (run : aggregateUsageResults runtime rows = some half)
    {held : UsageResult Entry Rest} :
    held ∈ half ↔ ∃ key, grouped runtime (nativeCoverage rows) rows key = some held := by
  obtain ⟨table, distinct, rfl, isGrouped⟩ := exists_table run
  rw [List.mem_map]
  constructor
  · rintro ⟨entry, member, rfl⟩
    exact ⟨entry.1, (isGrouped _).symm.trans ((Grouping.mem_iff_get distinct _ _).mp member)⟩
  · rintro ⟨key, isHeld⟩
    exact ⟨(key, held), (Grouping.mem_iff_get distinct _ _).mpr ((isGrouped key).trans isHeld), rfl⟩

/-- A group is one row, or has lost where it came from. -/
theorem grouped_cases {provider : Provider} {identity : IdentityName}
    {held : UsageResult Entry Rest}
    (isHeld : grouped runtime coverage rows (.group provider identity) = some held) :
    (∃ row, contributions runtime coverage rows (.group provider identity) = [row] ∧
        held = { row with provider }) ∨
      (contributions runtime coverage rows (.group provider identity)).length ≠ 1 ∧
        held.sourceTool = none ∧ held.nativeCoverageTool = none := by
  rw [grouped] at isHeld
  by_cases single : (contributions runtime coverage rows (.group provider identity)).length = 1
  · obtain ⟨row, one⟩ := List.length_eq_one_iff.mp single
    rw [one] at isHeld
    exact .inl ⟨row, one, (Option.some.inj isHeld).symm⟩
  · exact .inr ⟨single, provenance_merged isHeld single⟩

theorem companions_map {row : UsageResult Entry Rest} {key : RowKey}
    (isKey : rowKey runtime row = some key) :
    Provenance.companions runtime (rows.map UsageResult.provenance) row.provenance =
      (contributions runtime (nativeCoverage rows) rows key).map UsageResult.provenance := by
  rw [Provenance.companions, List.filter_map, covers_map, contributions, ← isKey]
  rfl

theorem isLone_map {row : UsageResult Entry Rest} {key : RowKey}
    (isKey : rowKey runtime row = some key) :
    Provenance.isLone runtime (rows.map UsageResult.provenance) row.provenance = true ↔
      isCovered (nativeCoverage rows) row = false ∧
        (contributions runtime (nativeCoverage rows) rows key).length = 1 := by
  rw [Provenance.isLone, companions_map isKey, List.length_map, covers_map, Bool.and_eq_true,
    Bool.not_eq_true', decide_eq_true_iff]
  rfl

/-- The rows that nothing is merged with. -/
def loneRows (runtime : UsageRuntime) (rows : List (UsageResult Entry Rest)) :
    List (UsageResult Entry Rest) :=
  rows.filter fun row =>
    Provenance.isLone runtime (rows.map UsageResult.provenance) row.provenance

theorem map_provenance_loneRows (rows : List (UsageResult Entry Rest)) :
    (loneRows runtime rows).map UsageResult.provenance =
      (rows.map UsageResult.provenance).filter
        (Provenance.isLone runtime (rows.map UsageResult.provenance)) := by
  rw [List.filter_map]
  rfl

/-- What aggregated rows cover is what the rows cover that nothing was merged with. -/
theorem mem_nativeCoverage_half (run : aggregateUsageResults runtime rows = some half)
    (entry : ToolName × IdentityName) :
    entry ∈ nativeCoverage half ↔ entry ∈ nativeCoverage (loneRows runtime rows) := by
  obtain ⟨tool, identity⟩ := entry
  rw [mem_nativeCoverage, mem_nativeCoverage]
  have placeable := exists_aggregate_iff.mp ⟨half, run⟩
  constructor
  · rintro ⟨held, member, isTool, reports, native, named⟩
    obtain ⟨key, isHeld⟩ := (mem_aggregated run).mp member
    have belongs := belongs_grouped isHeld
    cases key with
    | sourceOnlyError sourceTool name =>
      rw [(held.onlyError belongs.1).1] at reports
      exact Bool.noConfusion reports
    | group provider name =>
      rcases grouped_cases isHeld with ⟨row, one, rfl⟩ | ⟨-, lost, -⟩
      · have contributes := mem_contributions.mp (one ▸ List.mem_singleton_self row)
        refine ⟨row, List.mem_filter.mpr ⟨contributes.1, ?_⟩, isTool, reports, native, named⟩
        exact (isLone_map contributes.2.2).mpr ⟨contributes.2.1, by rw [one]; rfl⟩
      · rw [lost] at isTool
        cases isTool
  · rintro ⟨row, member, isTool, reports, native, named⟩
    obtain ⟨inRows, lone⟩ := List.mem_filter.mp member
    have uncovered : isCovered (nativeCoverage rows) row = false := by
      rw [Provenance.isLone, Bool.and_eq_true, Bool.not_eq_true', covers_map] at lone
      exact lone.1
    obtain ⟨key, isKey⟩ := Option.ne_none_iff_exists'.mp (placeable row inRows uncovered)
    obtain ⟨only, one⟩ := List.length_eq_one_iff.mp ((isLone_map isKey).mp lone).2
    have contributes : row ∈ contributions runtime (nativeCoverage rows) rows key :=
      mem_contributions.mpr ⟨inRows, uncovered, isKey⟩
    rw [one] at contributes
    obtain rfl := List.mem_singleton.mp contributes
    have isHeld : grouped runtime (nativeCoverage rows) rows key = some (startRow key row) := by
      rw [grouped, one]
      rfl
    refine ⟨startRow key row, (mem_aggregated run).mpr ⟨key, isHeld⟩, ?_⟩
    cases key <;> exact ⟨isTool, reports, native, named⟩

theorem isCovered_half (run : aggregateUsageResults runtime rows = some half)
    (row : UsageResult Entry Rest) :
    isCovered (nativeCoverage half) row = isCovered (nativeCoverage (loneRows runtime rows)) row :=
  isCovered_congr (mem_nativeCoverage_half run) row

theorem isCovered_of_half (run : aggregateUsageResults runtime rows = some half)
    {row : UsageResult Entry Rest} (covered : isCovered (nativeCoverage half) row = true) :
    isCovered (nativeCoverage rows) row = true := by
  rw [isCovered_half run] at covered
  exact isCovered_mono (fun entry member =>
    (List.filter_sublist.filterMap _).subset member) covered

/-! ### The second aggregation -/

/-- The condition on where rows come from, of the rows themselves. -/
abbrev RepeatableRows (runtime : UsageRuntime) (rows more : List (UsageResult Entry Rest)) : Prop :=
  Provenance.Repeatable runtime (rows.map UsageResult.provenance)
    (more.map UsageResult.provenance)

theorem settled_row (repeatable : RepeatableRows runtime rows more) {row : UsageResult Entry Rest}
    (member : row ∈ rows) (uncovered : isCovered (nativeCoverage (rows ++ more)) row = false)
    {provider : Provider} {identity : IdentityName}
    (isKey : rowKey runtime row = some (.group provider identity)) :
    canonicalUsageProvider runtime provider = some provider := by
  obtain ⟨ordinary, isProvider, -⟩ := rowKey_eq_group.mp isKey
  refine repeatable.settled row.provenance (List.mem_map_of_mem member) ?_ ordinary provider
    isProvider
  rw [← List.map_append, covers_map]
  exact uncovered

theorem merged_row (repeatable : RepeatableRows runtime rows more) {row : UsageResult Entry Rest}
    {provider : Provider} {identity : IdentityName}
    (contributes :
      row ∈ contributions runtime (nativeCoverage rows) rows (.group provider identity))
    (several : (contributions runtime (nativeCoverage rows) rows
      (.group provider identity)).length ≠ 1) : isCovered (nativeCoverage more) row = false := by
  obtain ⟨member, uncovered, isKey⟩ := mem_contributions.mp contributes
  have notLone :
      Provenance.isLone runtime (rows.map UsageResult.provenance) row.provenance ≠ true :=
    fun lone => several ((isLone_map isKey).mp lone).2
  have covered := repeatable.merged row.provenance (List.mem_map_of_mem member)
    (by rw [covers_map]; exact uncovered) (rowKey_eq_group.mp isKey).1
    (Bool.eq_false_of_not_eq_true notLone)
  rw [covers_map] at covered
  exact covered

/-- The further rows are left out as they are when all rows are aggregated at once. -/
theorem isCovered_more (run : aggregateUsageResults runtime rows = some half)
    (repeatable : RepeatableRows runtime rows more) {row : UsageResult Entry Rest}
    (member : row ∈ more) :
    isCovered (nativeCoverage (half ++ more)) row =
      isCovered (nativeCoverage (rows ++ more)) row := by
  rw [nativeCoverage_append, nativeCoverage_append, isCovered_append, isCovered_append,
    isCovered_half run]
  cases byRows : isCovered (nativeCoverage rows) row with
  | false =>
    have notLone : isCovered (nativeCoverage (loneRows runtime rows)) row = false := by
      by_contra lone
      rw [Bool.not_eq_false, ← isCovered_half run] at lone
      exact Bool.false_ne_true (byRows.symm.trans (isCovered_of_half run lone))
    rw [notLone]
  | true =>
    have reported := repeatable.reporting row.provenance (List.mem_map_of_mem member)
      (by rw [covers_map]; exact byRows)
    rw [← map_provenance_loneRows, covers_map, covers_map] at reported
    rw [Bool.true_or, ← isCovered_append]
    exact reported

/-- The row of a group is left out of the second aggregation just if it is covered by the further
rows. -/
theorem isCovered_held (run : aggregateUsageResults runtime rows = some half)
    {provider : Provider} {identity : IdentityName} {held : UsageResult Entry Rest}
    (isHeld : grouped runtime (nativeCoverage rows) rows (.group provider identity) = some held) :
    isCovered (nativeCoverage (half ++ more)) held = isCovered (nativeCoverage more) held := by
  rw [nativeCoverage_append, isCovered_append]
  have free : isCovered (nativeCoverage half) held = false := by
    by_contra covered
    have byRows := isCovered_of_half run (Bool.not_eq_false _ ▸ covered)
    rcases grouped_cases isHeld with ⟨row, one, rfl⟩ | ⟨-, -, lost⟩
    · have contributes := mem_contributions.mp (one ▸ List.mem_singleton_self row)
      exact Bool.false_ne_true (contributes.2.1.symm.trans byRows)
    · rw [isCovered, lost] at byRows
      exact Bool.false_ne_true byRows
  rw [free, Bool.false_or]

/-- The provider of a group that is not left out is its own canonical form. -/
theorem settled_held (repeatable : RepeatableRows runtime rows more) {provider : Provider}
    {identity : IdentityName} {held : UsageResult Entry Rest}
    (isHeld : grouped runtime (nativeCoverage rows) rows (.group provider identity) = some held)
    (uncovered : isCovered (nativeCoverage more) held = false) :
    canonicalUsageProvider runtime provider = some provider := by
  have settled {row : UsageResult Entry Rest}
      (contributes :
        row ∈ contributions runtime (nativeCoverage rows) rows (.group provider identity))
      (free : isCovered (nativeCoverage more) row = false) :
      canonicalUsageProvider runtime provider = some provider := by
    obtain ⟨member, byRows, isKey⟩ := mem_contributions.mp contributes
    refine settled_row repeatable member ?_ isKey
    rw [nativeCoverage_append, isCovered_append, byRows, free]
    rfl
  rcases grouped_cases isHeld with ⟨row, one, rfl⟩ | ⟨several, -, -⟩
  · have contributes :
        row ∈ contributions runtime (nativeCoverage rows) rows (.group provider identity) :=
      one ▸ List.mem_singleton_self row
    exact settled contributes uncovered
  · cases isRows : contributions runtime (nativeCoverage rows) rows (.group provider identity) with
    | nil =>
      rw [grouped, isRows] at isHeld
      cases isHeld
    | cons row others =>
      have contributes : row ∈
          contributions runtime (nativeCoverage rows) rows (.group provider identity) :=
        isRows ▸ List.mem_cons_self
      exact settled contributes (merged_row repeatable contributes several)

/-- The groups of the first aggregation that go to a key in the second one. -/
theorem contributions_half (run : aggregateUsageResults runtime rows = some half)
    (repeatable : RepeatableRows runtime rows more) (key : Provider × IdentityName) :
    contributions runtime (nativeCoverage (half ++ more)) half (.group key.1 key.2) =
      (grouped runtime (nativeCoverage rows) rows (.group key.1 key.2)).toList.filter
        fun held => !isCovered (nativeCoverage more) held := by
  rw [← rowsAt_eq run, rowsAt, List.filter_filter, contributions]
  refine List.filter_congr fun held member => ?_
  obtain ⟨own, isHeld⟩ := (mem_aggregated run).mp member
  have belongs := belongs_grouped isHeld
  cases own with
  | sourceOnlyError sourceTool identity =>
    have other : ¬ Belongs (.group key.1 key.2) held := fun ordinary =>
      Bool.false_ne_true (ordinary.1.symm.trans belongs.1)
    have noKey : rowKey runtime held ≠ some (.group key.1 key.2) := fun isKey =>
      Bool.false_ne_true ((rowKey_eq_group.mp isKey).1.symm.trans belongs.1)
    rw [decide_eq_false other, decide_eq_false noKey, Bool.and_false, Bool.and_false]
  | group provider identity =>
    rw [isCovered_held run isHeld]
    cases uncovered : isCovered (nativeCoverage more) held with
    | true => rfl
    | false =>
      refine congrArg _ (decide_eq_decide.mpr ?_)
      rw [rowKey_eq_group, belongs.2.1, settled_held repeatable isHeld uncovered, Option.some_inj,
        ← belongs.2.1]
      rfl

/-- They add up to what the rows add up to. -/
theorem summaries_half (run : aggregateUsageResults runtime rows = some half)
    (repeatable : RepeatableRows runtime rows more) (key : Provider × IdentityName) :
    (contributions runtime (nativeCoverage (half ++ more)) half (.group key.1 key.2)).map
        UsageResult.summary =
      (sumOf ((contributions runtime (nativeCoverage (rows ++ more)) rows
        (.group key.1 key.2)).map UsageResult.summary)).toList := by
  have atOnce : contributions runtime (nativeCoverage (rows ++ more)) rows (.group key.1 key.2) =
      (contributions runtime (nativeCoverage rows) rows (.group key.1 key.2)).filter
        fun row => !isCovered (nativeCoverage more) row := by
    rw [contributions, contributions, List.filter_filter]
    refine List.filter_congr fun row _ => ?_
    rw [nativeCoverage_append, isCovered_append, Bool.not_or]
    ac_rfl
  rw [contributions_half run repeatable, atOnce]
  cases isHeld : grouped runtime (nativeCoverage rows) rows (.group key.1 key.2) with
  | none =>
    have nothing : contributions runtime (nativeCoverage rows) rows (.group key.1 key.2) = [] := by
      rw [grouped] at isHeld
      cases isRows : contributions runtime (nativeCoverage rows) rows (.group key.1 key.2) with
      | nil => rfl
      | cons row others =>
        rw [isRows] at isHeld
        cases isHeld
    rw [nothing]
    rfl
  | some held =>
    rcases grouped_cases isHeld with ⟨row, one, rfl⟩ | ⟨several, -, lost⟩
    · have same : isCovered (nativeCoverage more) { row with provider := key.1 } =
          isCovered (nativeCoverage more) row := rfl
      rw [one, Option.toList_some, List.filter_cons, List.filter_cons, List.filter_nil, same]
      cases isCovered (nativeCoverage more) row <;> rfl
    · have free : isCovered (nativeCoverage more) held = false := by
        rw [isCovered, lost]
        rfl
      have all : (contributions runtime (nativeCoverage rows) rows (.group key.1 key.2)).filter
          (fun row => !isCovered (nativeCoverage more) row) =
          contributions runtime (nativeCoverage rows) rows (.group key.1 key.2) :=
        List.filter_eq_self.mpr fun row contributes => by
          rw [merged_row repeatable contributes several]
          rfl
      rw [all, ← summary_gather, ← grouped, isHeld, Option.toList_some,
        List.filter_cons_of_pos (by rw [free]; rfl)]
      rfl

/-- Aggregating again, with further rows, gives what aggregating at once gives. -/
structure Again (runtime : UsageRuntime) (rows more out : List (UsageResult Entry Rest)) :
    Prop where
  twice : ∃ half twice, aggregateUsageResults runtime rows = some half ∧
    aggregateUsageResults runtime (half ++ more) = some twice ∧
      ∀ key, totalsAt twice key = totalsAt out key

theorem again_of_repeatable {out : List (UsageResult Entry Rest)}
    (run : aggregateUsageResults runtime (rows ++ more) = some out) (texts : Texts (rows ++ more))
    (repeatable : RepeatableRows runtime rows more) : Again runtime rows more out := by
  have rowTexts : Texts rows := fun row member => texts row (List.mem_append_left _ member)
  have moreTexts : Texts more := fun row member => texts row (List.mem_append_right _ member)
  obtain ⟨half, isHalf⟩ := exists_aggregate_iff.mpr
    (placeable_of_texts rowTexts)
  have placeable : Placeable runtime (nativeCoverage (half ++ more)) (half ++ more) := by
    intro held member uncovered
    rcases List.mem_append.mp member with inHalf | inMore
    · obtain ⟨own, isHeld⟩ := (mem_aggregated isHalf).mp inHalf
      have belongs := belongs_grouped isHeld
      cases own with
      | sourceOnlyError sourceTool identity =>
        rw [rowKey_eq_failure.mpr belongs]
        exact Option.some_ne_none _
      | group provider identity =>
        rw [isCovered_held isHalf isHeld] at uncovered
        have settled := settled_held repeatable isHeld uncovered
        rw [rowKey_eq_group.mpr ⟨belongs.1, belongs.2.1.symm ▸ settled, belongs.2.2⟩]
        exact Option.some_ne_none _
    · exact placeable_of_texts moreTexts held inMore uncovered
  obtain ⟨twice, isTwice⟩ := exists_aggregate_iff.mpr placeable
  refine ⟨half, twice, isHalf, isTwice, fun key => ?_⟩
  have further : contributions runtime (nativeCoverage (half ++ more)) more (.group key.1 key.2) =
      contributions runtime (nativeCoverage (rows ++ more)) more (.group key.1 key.2) :=
    List.filter_congr fun row member => by rw [isCovered_more isHalf repeatable member]
  rw [totalsAt_eq isTwice, totalsAt_eq run, members, members, contributions_append,
    contributions_append, List.map_append, List.map_append, summaries_half isHalf repeatable,
    further, sumOf_append]

/-- Each row is counted once: by one aggregation of all rows, and by two. -/
def CountsOnce (runtime : UsageRuntime) (rows more : List (UsageResult Entry Rest)) : Prop :=
  ∃ out, Aggregates runtime (rows ++ more) out ∧ Again runtime rows more out

/-! ### Rows that show a double count -/

/-- Only marked rows have any usage, on one day. -/
def realize (marked : Provenance → Bool) (row : Provenance) : UsageResult Entry Rest where
  provider := row.provider
  identity := row.identity
  sourceTool := row.sourceTool
  nativeCoverageTool := row.nativeCoverageTool
  sourceOnlyError := row.sourceOnlyError
  report := if row.reports then some ⟨[], 0, 0, 0, 0, 0, 0⟩ else none
  error := none
  extraCost := none
  realCost := none
  dateSpan := none
  dailyUsage := if marked row then some ⟨[("today", 1)], List.nodup_singleton _⟩ else none
  dailyTotals := none
  pending := false
  rest := none
  onlyError failed := by
    obtain ⟨nothing, uncovered⟩ := row.onlyError failed
    rw [nothing]
    exact ⟨rfl, uncovered⟩

theorem realize_congr {marked other : Provenance → Bool} {row : Provenance}
    (same : marked row = other row) :
    (realize marked row : UsageResult Entry Rest) = realize other row := by
  rw [realize, realize, same]

theorem provenance_realize (marked : Provenance → Bool) (row : Provenance) :
    (realize marked row : UsageResult Entry Rest).provenance = row := by
  have reports : (realize marked row : UsageResult Entry Rest).report.isSome = row.reports := by
    show Option.isSome (if row.reports then some (⟨[], 0, 0, 0, 0, 0, 0⟩ : TokscaleReport Entry)
      else none) = row.reports
    cases row.reports <;> rfl
  rw [UsageResult.provenance]
  congr

theorem map_provenance_realize (marked : Provenance → Bool) (rows : List Provenance) :
    (rows.map (@realize Entry Rest marked)).map UsageResult.provenance =
      rows := by
  rw [List.map_map]
  exact (List.map_congr_left fun row _ => provenance_realize marked row).trans (List.map_id rows)

/-- Some usage is counted on the day. -/
def Summary.Used (summary : Summary) : Prop := summary.usage "today" ≠ none

theorem used_realize (marked : Provenance → Bool) (row : Provenance) :
    (realize marked row : UsageResult Entry Rest).summary.Used ↔ marked row = true := by
  rw [Summary.Used, UsageResult.summary, realize]
  cases marked row with
  | false => exact iff_of_false (fun used => used rfl) Bool.false_ne_true
  | true => exact iff_of_true (fun unused => Option.some_ne_none _ unused) rfl

theorem used_sumOf (summaries : List Summary) :
    (∃ sum ∈ (sumOf summaries).toList, sum.Used) ↔ ∃ summary ∈ summaries, summary.Used := by
  induction summaries using List.reverseRecOn with
  | nil => exact Iff.rfl
  | append_singleton summaries last inductionHypothesis =>
    have either : (∃ summary ∈ summaries ++ [last], summary.Used) ↔
        (∃ summary ∈ summaries, summary.Used) ∨ last.Used := by
      simp only [List.mem_append, List.mem_singleton, or_and_right, exists_or, exists_eq_left]
    rw [either, ← inductionHypothesis, sumOf_concat, Option.toList_some]
    simp only [List.mem_singleton, exists_eq_left]
    cases sumOf summaries with
    | none => simp
    | some sum =>
      rw [Option.elim_some, Summary.Used, Summary.add, Ne, Option.merge_eq_none_iff, not_and_or]
      simp [Summary.Used]

theorem used_totalsAt {out : List (UsageResult Entry Rest)}
    (run : aggregateUsageResults runtime results = some out) (key : Provider × IdentityName) :
    (∃ sum ∈ totalsAt out key, sum.Used) ↔
      ∃ row ∈ members runtime results key, row.summary.Used := by
  rw [totalsAt_eq run, used_sumOf]
  simp only [List.mem_map, exists_exists_and_eq_and]

end Half

/-! ### The condition is needed -/

section Needed

variable {first rest : List Provenance}

/-- Two aggregations of marked rows give what one gives. -/
def AgainMarked (Entry Rest : Type) (runtime : UsageRuntime) (first rest : List Provenance)
    (firstMarked restMarked : Provenance → Bool) : Prop :=
  ∃ out, aggregateUsageResults runtime (first.map (@realize Entry Rest firstMarked) ++
      rest.map (@realize Entry Rest restMarked)) = some out ∧
    Again runtime (first.map (@realize Entry Rest firstMarked))
      (rest.map (@realize Entry Rest restMarked)) out

/-- A marked row is counted at once just where it is counted in two. -/
theorem AgainMarked.exists_half {firstMarked restMarked : Provenance → Bool}
    (again : AgainMarked Entry Rest runtime first rest firstMarked restMarked) : ∃ half,
      aggregateUsageResults runtime (first.map (@realize Entry Rest firstMarked)) = some half ∧
      Placeable runtime (nativeCoverage (half ++ rest.map (@realize Entry Rest restMarked)))
        (half ++ rest.map (@realize Entry Rest restMarked)) ∧
      ∀ key, (∃ row ∈ members runtime (first.map (@realize Entry Rest firstMarked) ++
          rest.map (@realize Entry Rest restMarked)) key, row.summary.Used) ↔
        ∃ row ∈ members runtime (half ++ rest.map (@realize Entry Rest restMarked)) key,
          row.summary.Used := by
  obtain ⟨out, run, ⟨half, twice, isHalf, isTwice, same⟩⟩ := again
  refine ⟨half, isHalf, exists_aggregate_iff.mp ⟨twice, isTwice⟩, fun key => ?_⟩
  rw [← used_totalsAt run, ← used_totalsAt isTwice, same]

/-- A row of a group is used if a row that it is made of is. -/
theorem used_grouped {rows : List (UsageResult Entry Rest)} {provider : Provider}
    {identity : IdentityName} {held : UsageResult Entry Rest}
    (isHeld : grouped runtime coverage rows (.group provider identity) = some held) :
    held.summary.Used ↔ ∃ row ∈ contributions runtime coverage rows (.group provider identity),
      row.summary.Used := by
  have sum : some held.summary = sumOf ((contributions runtime coverage rows
      (.group provider identity)).map UsageResult.summary) := by
    rw [← summary_gather, ← grouped, isHeld]
    rfl
  have used := used_sumOf ((contributions runtime coverage rows
    (.group provider identity)).map UsageResult.summary)
  rw [← sum, Option.toList_some] at used
  simpa only [List.mem_singleton, exists_eq_left, List.mem_map, exists_exists_and_eq_and] using used

theorem nativeCoverage_realize (marked : Provenance → Bool) (rows : List Provenance) :
    nativeCoverage (rows.map (@realize Entry Rest marked)) = Provenance.covers rows := by
  rw [← covers_map, map_provenance_realize]

theorem isCovered_realize (marked : Provenance → Bool) (row : Provenance) :
    isCovered coverage (realize marked row : UsageResult Entry Rest) =
      Provenance.isCovered coverage row := rfl

theorem rowKey_realize (marked : Provenance → Bool) (row : Provenance) :
    rowKey runtime (realize marked row : UsageResult Entry Rest) =
      Provenance.rowKey runtime row := rfl

/-- Rows that are left out are not counted, whatever they report. -/
theorem not_used_of_covered {firstMarked restMarked : Provenance → Bool}
    (firstLeftOut : ∀ row, firstMarked row = true →
      Provenance.isCovered (Provenance.covers (first ++ rest)) row = true)
    (restLeftOut : ∀ row, restMarked row = true →
      Provenance.isCovered (Provenance.covers (first ++ rest)) row = true)
    (key : Provider × IdentityName) :
    ¬ ∃ row ∈ members runtime (first.map (@realize Entry Rest firstMarked) ++
      rest.map (@realize Entry Rest restMarked)) key, row.summary.Used := by
  rintro ⟨row, isMember, used⟩
  obtain ⟨member, uncovered, -⟩ := mem_contributions.mp isMember
  rw [nativeCoverage_append, nativeCoverage_realize, nativeCoverage_realize, ← covers_append]
    at uncovered
  rcases List.mem_append.mp member with inFirst | inRest
  · obtain ⟨origin, -, rfl⟩ := List.mem_map.mp inFirst
    have covered := firstLeftOut origin ((used_realize firstMarked origin).mp used)
    exact Bool.false_ne_true (uncovered.symm.trans covered)
  · obtain ⟨origin, -, rfl⟩ := List.mem_map.mp inRest
    have covered := restLeftOut origin ((used_realize restMarked origin).mp used)
    exact Bool.false_ne_true (uncovered.symm.trans covered)

theorem exists_grouped {rows : List (UsageResult Entry Rest)} {key : RowKey}
    {row : UsageResult Entry Rest} (contributes : row ∈ contributions runtime coverage rows key) :
    ∃ held, grouped runtime coverage rows key = some held := by
  rw [grouped]
  cases isRows : contributions runtime coverage rows key with
  | nil =>
    rw [isRows] at contributes
    cases contributes
  | cons first others => exact ⟨_, rfl⟩

/-- Where a group of the first aggregation goes in the second one. -/
theorem exists_member_held {rows more half : List (UsageResult Entry Rest)}
    (isHalf : aggregateUsageResults runtime rows = some half)
    (placeable : Placeable runtime (nativeCoverage (half ++ more)) (half ++ more))
    {provider : Provider} {identity : IdentityName} {held : UsageResult Entry Rest}
    (isHeld : grouped runtime (nativeCoverage rows) rows (.group provider identity) = some held)
    (uncovered : isCovered (nativeCoverage more) held = false) :
    ∃ other, canonicalUsageProvider runtime provider = some other ∧
      held ∈ members runtime (half ++ more) (other, identity) := by
  have belongs := belongs_grouped isHeld
  have inHalf : held ∈ half ++ more :=
    List.mem_append_left _ ((mem_aggregated isHalf).mpr ⟨_, isHeld⟩)
  have free : isCovered (nativeCoverage (half ++ more)) held = false :=
    (isCovered_held isHalf isHeld).trans uncovered
  have isPlaced := placeable held inHalf free
  cases isProvider : canonicalUsageProvider runtime provider with
  | none =>
    rw [rowKey, belongs.1, belongs.2.1, isProvider] at isPlaced
    exact absurd rfl isPlaced
  | some other =>
    exact ⟨other, rfl, mem_contributions.mpr ⟨inHalf, free,
      rowKey_eq_group.mpr ⟨belongs.1, by rw [belongs.2.1, isProvider], belongs.2.2⟩⟩⟩

theorem covered_of_append_left {row : Provenance}
    (covered : Provenance.isCovered (Provenance.covers first) row = true) :
    Provenance.isCovered (Provenance.covers (first ++ rest)) row = true := by
  rw [covers_append]
  exact @isCovered_mono Unit Unit _ _ (fun _ member => List.mem_append_left _ member)
    (realize (fun _ => false) row) covered

theorem covered_of_append_right {row : Provenance}
    (covered : Provenance.isCovered (Provenance.covers rest) row = true) :
    Provenance.isCovered (Provenance.covers (first ++ rest)) row = true := by
  rw [covers_append]
  exact @isCovered_mono Unit Unit _ _ (fun _ member => List.mem_append_right _ member)
    (realize (fun _ => false) row) covered

theorem merged_of_again
    (again : AgainMarked Entry Rest runtime first rest
      (Provenance.isCovered (Provenance.covers (first ++ rest))) fun _ => false)
    (texts : ∀ row ∈ first, ∃ units, row.provider = .text units) {row : Provenance}
    (member : row ∈ first)
    (uncovered : Provenance.isCovered (Provenance.covers first) row = false)
    (ordinary : row.sourceOnlyError = false)
    (several : Provenance.isLone runtime first row = false) :
    Provenance.isCovered (Provenance.covers rest) row = false := by
  by_contra covered
  rw [Bool.not_eq_false] at covered
  -- only rows are marked that the one aggregation leaves out
  let leftOut := Provenance.isCovered (Provenance.covers (first ++ rest))
  obtain ⟨half, isHalf, placeable, same⟩ := again.exists_half
  have isLeftOut : leftOut row = true := covered_of_append_right covered
  obtain ⟨units, isText⟩ := texts row member
  obtain ⟨provider, isProvider⟩ := @canonical_of_text runtime units
  have isKey : rowKey runtime (realize leftOut row : UsageResult Entry Rest) =
      some (.group provider row.identity) :=
    rowKey_eq_group.mpr ⟨ordinary, by rw [← isProvider, ← isText]; rfl, rfl⟩
  have inRows : (realize leftOut row : UsageResult Entry Rest) ∈ first.map (realize leftOut) :=
    List.mem_map_of_mem member
  have contributes : (realize leftOut row : UsageResult Entry Rest) ∈ contributions runtime
      (nativeCoverage (first.map (@realize Entry Rest leftOut))) (first.map (realize leftOut))
      (.group provider row.identity) :=
    mem_contributions.mpr ⟨inRows, by rw [nativeCoverage_realize]; exact uncovered, isKey⟩
  obtain ⟨held, isHeld⟩ := exists_grouped contributes
  have merged : held.nativeCoverageTool = none := by
    rcases grouped_cases isHeld with ⟨only, one, -⟩ | ⟨-, -, lost⟩
    · have lone := (isLone_map isKey).mpr
        ⟨(mem_contributions.mp contributes).2.1, by rw [one]; rfl⟩
      rw [map_provenance_realize, provenance_realize, several] at lone
      exact Bool.noConfusion lone
    · exact lost
  have free : isCovered (nativeCoverage (rest.map (@realize Entry Rest fun _ => false))) held =
      false := by
    rw [isCovered, merged]
    rfl
  obtain ⟨other, -, isMember⟩ := exists_member_held isHalf placeable isHeld free
  have used : held.summary.Used :=
    (used_grouped isHeld).mpr ⟨_, contributes, (used_realize leftOut row).mpr isLeftOut⟩
  exact not_used_of_covered (fun _ marked => marked) (fun _ marked => Bool.noConfusion marked) _
    ((same _).mpr ⟨held, isMember, used⟩)

theorem reporting_of_again
    (again : AgainMarked Entry Rest runtime first rest (fun _ => false)
      (Provenance.isCovered (Provenance.covers (first ++ rest))))
    (texts : ∀ row ∈ rest, ∃ units, row.provider = .text units) {row : Provenance}
    (member : row ∈ rest) (covered : Provenance.isCovered (Provenance.covers first) row = true) :
    Provenance.isCovered (Provenance.covers (first.filter (Provenance.isLone runtime first)) ++
      Provenance.covers rest) row = true := by
  by_contra uncovered
  rw [Bool.not_eq_true] at uncovered
  -- only rows are marked that the one aggregation leaves out
  let leftOut := Provenance.isCovered (Provenance.covers (first ++ rest))
  obtain ⟨half, isHalf, placeable, same⟩ := again.exists_half
  have isLeftOut : leftOut row = true := covered_of_append_left covered
  have ordinary : row.sourceOnlyError = false := by
    by_contra failed
    rw [Provenance.isCovered, (row.onlyError (Bool.not_eq_false _ ▸ failed)).2] at covered
    exact Bool.false_ne_true covered
  obtain ⟨units, isText⟩ := texts row member
  obtain ⟨provider, isProvider⟩ := @canonical_of_text runtime units
  have isKey : rowKey runtime (realize leftOut row : UsageResult Entry Rest) =
      some (.group provider row.identity) :=
    rowKey_eq_group.mpr ⟨ordinary, by rw [← isProvider, ← isText]; rfl, rfl⟩
  have free : isCovered (nativeCoverage (half ++ rest.map (@realize Entry Rest leftOut)))
      (realize leftOut row : UsageResult Entry Rest) = false := by
    rw [nativeCoverage_append, isCovered_append, isCovered_half isHalf, ← covers_map (loneRows _ _),
      map_provenance_loneRows, map_provenance_realize, nativeCoverage_realize, ← isCovered_append]
    exact uncovered
  have inRows : (realize leftOut row : UsageResult Entry Rest) ∈
      half ++ rest.map (@realize Entry Rest leftOut) :=
    List.mem_append_right _ (List.mem_map_of_mem member)
  have isMember := mem_contributions.mpr ⟨inRows, free, isKey⟩
  exact not_used_of_covered (fun _ marked => Bool.noConfusion marked) (fun _ marked => marked)
    (provider, row.identity)
    ((same _).mpr ⟨_, isMember, (used_realize leftOut row).mpr isLeftOut⟩)

theorem settled_of_again
    (again : ∀ firstMarked, AgainMarked Entry Rest runtime first rest firstMarked fun _ => false)
    {row : Provenance}
    (member : row ∈ first)
    (uncovered : Provenance.isCovered (Provenance.covers (first ++ rest)) row = false)
    (ordinary : row.sourceOnlyError = false) {provider : Provider}
    (isProvider : canonicalUsageProvider runtime row.provider = some provider) :
    canonicalUsageProvider runtime provider = some provider := by
  -- all rows of the group are marked
  let ofGroup (other : Provenance) : Bool :=
    Provenance.rowKey runtime other = some (.group provider row.identity)
  obtain ⟨half, isHalf, placeable, same⟩ := (again ofGroup).exists_half
  have isKey : rowKey runtime (realize ofGroup row : UsageResult Entry Rest) =
      some (.group provider row.identity) := rowKey_eq_group.mpr ⟨ordinary, isProvider, rfl⟩
  rw [covers_append] at uncovered
  have apart := (isCovered_append (Provenance.covers first) (Provenance.covers rest)
    (realize ofGroup row : UsageResult Entry Rest)).symm.trans uncovered
  rw [Bool.or_eq_false_iff] at apart
  have inRows : (realize ofGroup row : UsageResult Entry Rest) ∈ first.map (realize ofGroup) :=
    List.mem_map_of_mem member
  have contributes : (realize ofGroup row : UsageResult Entry Rest) ∈ contributions runtime
      (nativeCoverage (first.map (@realize Entry Rest ofGroup))) (first.map (realize ofGroup))
      (.group provider row.identity) :=
    mem_contributions.mpr ⟨inRows, by rw [nativeCoverage_realize]; exact apart.1, isKey⟩
  obtain ⟨held, isHeld⟩ := exists_grouped contributes
  have free : isCovered (nativeCoverage (rest.map (@realize Entry Rest fun _ => false))) held =
      false := by
    rcases grouped_cases isHeld with ⟨only, one, rfl⟩ | ⟨-, -, lost⟩
    · rw [one] at contributes
      obtain rfl := List.mem_singleton.mp contributes
      rw [nativeCoverage_realize]
      exact apart.2
    · rw [isCovered, lost]
      rfl
  obtain ⟨other, isOther, isMember⟩ := exists_member_held isHalf placeable isHeld free
  have used : held.summary.Used := (used_grouped isHeld).mpr
    ⟨_, contributes, (used_realize ofGroup row).mpr (decide_eq_true isKey)⟩
  -- at once, a marked row goes to the group and nowhere else
  obtain ⟨counted, isCounted, marked⟩ := (same _).mpr ⟨held, isMember, used⟩
  obtain ⟨inBoth, -, goes⟩ := mem_contributions.mp isCounted
  rcases List.mem_append.mp inBoth with inFirst | inRest
  · obtain ⟨origin, -, rfl⟩ := List.mem_map.mp inFirst
    have home := of_decide_eq_true ((used_realize ofGroup origin).mp marked)
    rw [rowKey_realize, home, Option.some_inj, RowKey.group.injEq] at goes
    exact isOther.trans (congrArg some goes.1.symm)
  · obtain ⟨origin, -, rfl⟩ := List.mem_map.mp inRest
    exact Bool.noConfusion ((used_realize (fun _ => false) origin).mp marked)

theorem map_source_failuresOf (rows : List (UsageResult Entry Rest)) :
    (failuresOf rows).map UsageResult.source =
      ((rows.map UsageResult.provenance).filter (·.sourceOnlyError)).map
        fun row => (row.sourceTool, row.identity) := by
  rw [failuresOf, List.filter_map, List.map_map]
  rfl

end Needed

/-! ### A double count -/

def plainRuntime : UsageRuntime := ⟨plainCase, unitsOf⟩

def fromOpencode : Provenance where
  provider := .text (unitsOf "openai")
  identity := "work"
  sourceTool := some .opencode
  nativeCoverageTool := none
  sourceOnlyError := false
  reports := true
  onlyError failed := Bool.noConfusion failed

/-- The usage of Codex as Pi reports it. -/
def fromPi : Provenance where
  provider := .text (unitsOf "openai")
  identity := "work"
  sourceTool := some .pi
  nativeCoverageTool := some .codex
  sourceOnlyError := false
  reports := true
  onlyError failed := Bool.noConfusion failed

def fromCodex : Provenance where
  provider := .text (unitsOf "openai")
  identity := "work"
  sourceTool := some .codex
  nativeCoverageTool := none
  sourceOnlyError := false
  reports := true
  onlyError failed := Bool.noConfusion failed

theorem canonical_openai : canonicalUsageProvider plainRuntime (.text (unitsOf "openai")) =
    some (.text (unitsOf "openai")) := by decide +kernel

end AiSwitcher.UsageRows
