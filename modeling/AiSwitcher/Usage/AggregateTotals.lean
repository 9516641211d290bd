/-
This file proves what `aggregateUsageResults` keeps. The row of a group is the sum of the rows that
are not left out, each once, in any order. A sum of sums is the sum of all, so aggregating
twice gives the same totals unless a row that was merged has lost where it came from: then it no
longer covers, or is no longer covered.
-/

import AiSwitcher.Usage.Aggregate
import Mathlib.Algebra.BigOperators.Fin
import Mathlib.Data.List.Perm.Basic
import Mathlib.Data.Option.NAry
import Mathlib.Tactic.FinCases

namespace AiSwitcher.UsageRows

open JavaScript.JsonText (Units)

variable {runtime : UsageRuntime} {Entry Rest : Type}
variable {coverage : List (ToolName × IdentityName)} {results : List (UsageResult Entry Rest)}

/-! ### The groups -/

/-- The rows that go to a key. -/
def contributions (runtime : UsageRuntime) (coverage : List (ToolName × IdentityName))
    (results : List (UsageResult Entry Rest)) (key : RowKey) : List (UsageResult Entry Rest) :=
  results.filter fun result => !isCovered coverage result && (rowKey runtime result = some key)

theorem mem_contributions {key : RowKey} {result : UsageResult Entry Rest} :
    result ∈ contributions runtime coverage results key ↔
      result ∈ results ∧ isCovered coverage result = false ∧ rowKey runtime result = some key := by
  rw [contributions, List.mem_filter, Bool.and_eq_true, Bool.not_eq_true', decide_eq_true_iff]

theorem contributions_append (first second : List (UsageResult Entry Rest)) (key : RowKey) :
    contributions runtime coverage (first ++ second) key =
      contributions runtime coverage first key ++ contributions runtime coverage second key :=
  List.filter_append _ _

/-- The rows with their keys, if all of them have one. -/
def placed (runtime : UsageRuntime) (coverage : List (ToolName × IdentityName))
    (results : List (UsageResult Entry Rest)) : List (RowKey × UsageResult Entry Rest) :=
  results.filterMap fun result =>
    if isCovered coverage result then none
    else (rowKey runtime result).map fun key => (key, result)

def Placeable (runtime : UsageRuntime) (coverage : List (ToolName × IdentityName))
    (results : List (UsageResult Entry Rest)) : Prop :=
  ∀ result ∈ results, isCovered coverage result = false → rowKey runtime result ≠ none

theorem foldlM_addResult (results : List (UsageResult Entry Rest)) :
    ∀ (grouped out : List (RowKey × UsageResult Entry Rest)),
      results.foldlM (addResult runtime coverage) grouped = some out ↔
        Placeable runtime coverage results ∧
          (placed runtime coverage results).foldl (Grouping.put startRow joinRow) grouped = out := by
  induction results with
  | nil =>
    intro grouped out
    exact ⟨fun same => ⟨List.forall_mem_nil _, Option.some.inj same⟩,
      fun holds => congrArg some holds.2⟩
  | cons result rest inductionHypothesis =>
    intro grouped out
    rw [List.foldlM_cons, Placeable, List.forall_mem_cons, placed, List.filterMap_cons, addResult]
    cases covered : isCovered coverage result with
    | true =>
      rw [if_pos rfl, if_pos rfl, Option.bind_eq_bind, Option.bind_some, inductionHypothesis]
      rw [and_iff_right fun uncovered => Bool.noConfusion uncovered]
      rfl
    | false =>
      rw [if_neg Bool.false_ne_true, if_neg Bool.false_ne_true]
      cases isKey : rowKey runtime result with
      | none =>
        refine iff_of_false (Option.some_ne_none _).symm ?_
        exact fun holds => holds.1.1 rfl rfl
      | some key =>
        rw [Option.map_some, Option.bind_eq_bind, Option.bind_some, inductionHypothesis,
          and_iff_right fun _ => Option.some_ne_none key]
        rfl

theorem rowsOf_placed (results : List (UsageResult Entry Rest)) (key : RowKey) :
    Grouping.rowsOf (placed runtime coverage results) key =
      contributions runtime coverage results key := by
  induction results with
  | nil => rfl
  | cons result rest inductionHypothesis =>
    have single : Grouping.rowsOf (placed runtime coverage [result]) key =
        contributions runtime coverage [result] key := by
      rw [placed, List.filterMap_cons, List.filterMap_nil, contributions]
      cases covered : isCovered coverage result with
      | true =>
        rw [if_pos rfl, List.filter_cons_of_neg (by rw [covered]; exact Bool.false_ne_true)]
        rfl
      | false =>
        rw [if_neg Bool.false_ne_true]
        by_cases same : rowKey runtime result = some key
        · rw [List.filter_cons_of_pos (by rw [covered, decide_eq_true same]; rfl), same]
          exact (Grouping.rowsOf_cons _ _ _).trans (by rw [if_pos rfl]; rfl)
        · rw [List.filter_cons_of_neg (by rw [covered, decide_eq_false same]; exact
            Bool.false_ne_true)]
          cases isKey : rowKey runtime result with
          | none => rfl
          | some other =>
            have different : other ≠ key := fun equal => same (isKey.trans (congrArg some equal))
            exact (Grouping.rowsOf_cons _ _ _).trans (by rw [if_neg different]; rfl)
    rw [show result :: rest = [result] ++ rest from rfl, contributions_append, placed,
      List.filterMap_append, Grouping.rowsOf_append]
    exact congr (congrArg _ single) inductionHypothesis

/-- A row belongs to its key. -/
def Belongs : RowKey → UsageResult Entry Rest → Prop
  | .sourceOnlyError sourceTool identity, result =>
      result.sourceOnlyError = true ∧ result.sourceTool = sourceTool ∧ result.identity = identity
  | .group provider identity, result =>
      result.sourceOnlyError = false ∧ result.provider = provider ∧ result.identity = identity

theorem rowKey_eq_failure {result : UsageResult Entry Rest} {sourceTool : Option ToolName}
    {identity : IdentityName} :
    rowKey runtime result = some (.sourceOnlyError sourceTool identity) ↔
      result.sourceOnlyError = true ∧ result.sourceTool = sourceTool ∧
        result.identity = identity := by
  rw [rowKey]
  cases result.sourceOnlyError with
  | true => rw [if_pos rfl, Option.some.injEq, RowKey.sourceOnlyError.injEq, and_iff_right rfl]
  | false =>
    rw [if_neg Bool.false_ne_true]
    refine iff_of_false (fun same => ?_) fun holds => Bool.noConfusion holds.1
    obtain ⟨provider, -, other⟩ := Option.map_eq_some_iff.mp same
    cases other

theorem rowKey_eq_group {result : UsageResult Entry Rest} {provider : Provider}
    {identity : IdentityName} :
    rowKey runtime result = some (.group provider identity) ↔
      result.sourceOnlyError = false ∧
        canonicalUsageProvider runtime result.provider = some provider ∧
        result.identity = identity := by
  rw [rowKey]
  cases result.sourceOnlyError with
  | true =>
    rw [if_pos rfl]
    refine iff_of_false (fun same => ?_) fun holds => Bool.noConfusion holds.1
    cases same
  | false =>
    rw [if_neg Bool.false_ne_true, and_iff_right rfl, Option.map_eq_some_iff]
    constructor
    · rintro ⟨other, isOther, same⟩
      cases same
      exact ⟨isOther, rfl⟩
    · rintro ⟨isProvider, rfl⟩
      exact ⟨provider, isProvider, rfl⟩

theorem belongs_startRow {key : RowKey} {result : UsageResult Entry Rest}
    (isKey : rowKey runtime result = some key) : Belongs key (startRow key result) := by
  cases key with
  | sourceOnlyError sourceTool identity => exact rowKey_eq_failure.mp isKey
  | group provider identity =>
    obtain ⟨ordinary, -, named⟩ := rowKey_eq_group.mp isKey
    exact ⟨ordinary, rfl, named⟩

theorem belongs_joinRow {key : RowKey} {existing result : UsageResult Entry Rest}
    (belongs : Belongs key existing) (isKey : rowKey runtime result = some key) :
    Belongs key (joinRow key existing result) := by
  cases key with
  | sourceOnlyError sourceTool identity => exact rowKey_eq_failure.mp isKey
  | group provider identity => exact ⟨rfl, rfl, belongs.2.2⟩

theorem belongs_gather {key : RowKey} {rows : List (UsageResult Entry Rest)}
    {held : UsageResult Entry Rest} (keys : ∀ row ∈ rows, rowKey runtime row = some key)
    (gathered : Grouping.gather startRow joinRow key rows = some held) : Belongs key held := by
  induction rows using List.reverseRecOn generalizing held with
  | nil => cases gathered
  | append_singleton rows row inductionHypothesis =>
    have rowHere := keys row (List.mem_append_right _ (.head _))
    rw [Grouping.gather_concat] at gathered
    obtain rfl := Option.some.inj gathered
    cases earlier : Grouping.gather startRow joinRow key rows with
    | none => exact belongs_startRow rowHere
    | some before =>
      exact belongs_joinRow (inductionHypothesis (fun other member =>
        keys other (List.mem_append_left _ member)) earlier) rowHere

/-- What the rows of a key become. -/
def grouped (runtime : UsageRuntime) (coverage : List (ToolName × IdentityName))
    (results : List (UsageResult Entry Rest)) (key : RowKey) : Option (UsageResult Entry Rest) :=
  Grouping.gather startRow joinRow key (contributions runtime coverage results key)

theorem belongs_grouped {key : RowKey} {held : UsageResult Entry Rest}
    (isHeld : grouped runtime coverage results key = some held) : Belongs key held :=
  belongs_gather (fun _ member => (mem_contributions.mp member).2.2) isHeld

theorem exists_aggregate_iff :
    (∃ out, aggregateUsageResults runtime results = some out) ↔
      Placeable runtime (nativeCoverage results) results := by
  rw [aggregateUsageResults]
  constructor
  · rintro ⟨out, run⟩
    obtain ⟨table, isTable, -⟩ := Option.map_eq_some_iff.mp run
    exact ((foldlM_addResult results [] table).mp isTable).1
  · intro placeable
    exact ⟨_, Option.map_eq_some_iff.mpr ⟨_, (foldlM_addResult results [] _).mpr ⟨placeable, rfl⟩,
      rfl⟩⟩

/-- The aggregated rows are those of the keys, one each. -/
theorem exists_table {out : List (UsageResult Entry Rest)}
    (run : aggregateUsageResults runtime results = some out) :
    ∃ table : List (RowKey × UsageResult Entry Rest), (table.map Prod.fst).Nodup ∧
      out = table.map Prod.snd ∧
      ∀ key, Grouping.get table key = grouped runtime (nativeCoverage results) results key := by
  obtain ⟨table, isTable, rfl⟩ := Option.map_eq_some_iff.mp run
  obtain ⟨-, rfl⟩ := (foldlM_addResult results [] table).mp isTable
  refine ⟨_, Grouping.nodup_foldl_put _ _ _ [] List.nodup_nil, rfl, fun key => ?_⟩
  rw [Grouping.get_foldl_put, rowsOf_placed]
  rfl

instance (key : RowKey) (row : UsageResult Entry Rest) : Decidable (Belongs key row) := by
  cases key <;> exact inferInstanceAs (Decidable (_ ∧ _ ∧ _))

/-- The rows of a key among aggregated ones. -/
def rowsAt (out : List (UsageResult Entry Rest)) (key : RowKey) : List (UsageResult Entry Rest) :=
  out.filter fun row => Belongs key row

theorem belongs_unique {first second : RowKey} {row : UsageResult Entry Rest}
    (isFirst : Belongs first row) (isSecond : Belongs second row) : first = second := by
  cases first with
  | sourceOnlyError sourceTool identity =>
    obtain ⟨failed, rfl, rfl⟩ := isFirst
    cases second with
    | sourceOnlyError otherTool otherIdentity =>
      obtain ⟨-, rfl, rfl⟩ := isSecond
      rfl
    | group provider identity => exact Bool.noConfusion (failed.symm.trans isSecond.1)
  | group provider identity =>
    obtain ⟨ordinary, rfl, rfl⟩ := isFirst
    cases second with
    | sourceOnlyError otherTool otherIdentity =>
      exact Bool.noConfusion (isSecond.1.symm.trans ordinary)
    | group provider identity =>
      obtain ⟨-, rfl, rfl⟩ := isSecond
      rfl

theorem rowsAt_eq {out : List (UsageResult Entry Rest)}
    (run : aggregateUsageResults runtime results = some out) (key : RowKey) :
    rowsAt out key = (grouped runtime (nativeCoverage results) results key).toList := by
  obtain ⟨table, distinct, rfl, isGrouped⟩ := exists_table run
  rw [← isGrouped, ← Grouping.rowsOf_table distinct, rowsAt, List.filter_map, Grouping.rowsOf]
  refine congrArg _ (List.filter_congr fun entry member => ?_)
  have belongs : Belongs entry.1 entry.2 :=
    belongs_grouped ((isGrouped entry.1).symm.trans
      ((Grouping.mem_iff_get distinct entry.1 entry.2).mp member))
  refine decide_eq_decide.mpr ⟨fun isKey => belongs_unique belongs isKey, ?_⟩
  rintro rfl
  exact belongs

/-! ### What rows add up to -/

/-- What an object has on a day. -/
def ByDay.on {Amount : Type} [AddCommMonoid Amount] (byDay : ByDay Amount) (day : String) :
    Option Amount :=
  if day ∈ byDay.days.map Prod.fst then some (Tally.get byDay.days day) else none

theorem ByDay.on_addAll {Amount : Type} [AddCommMonoid Amount] (into other : ByDay Amount)
    (day : String) :
    (into.addAll other).on day = Option.merge (· + ·) (into.on day) (other.on day) := by
  have keys : day ∈ (into.addAll other).days.map Prod.fst ↔
      day ∈ into.days.map Prod.fst ∨ day ∈ other.days.map Prod.fst := Tally.mem_keys_addAll
  have amount : Tally.get (into.addAll other).days day =
      Tally.get into.days day + Tally.get other.days day :=
    Tally.get_addAll_of_nodup other.distinct _ _
  rw [ByDay.on, ByDay.on, ByDay.on, amount]
  by_cases inInto : day ∈ into.days.map Prod.fst
  · rw [if_pos (keys.mpr (.inl inInto)), if_pos inInto]
    by_cases inOther : day ∈ other.days.map Prod.fst
    · rw [if_pos inOther]
      rfl
    · rw [if_neg inOther, Tally.get_of_not_mem inOther, add_zero, Option.merge_none_right]
  · rw [if_neg inInto, Tally.get_of_not_mem inInto, zero_add, Option.merge_none_left]
    by_cases inOther : day ∈ other.days.map Prod.fst
    · rw [if_pos (keys.mpr (.inr inOther)), if_pos inOther]
    · rw [if_neg (keys.not.mpr (not_or.mpr ⟨inInto, inOther⟩)), if_neg inOther]

theorem ByDay.on_empty {Amount : Type} [AddCommMonoid Amount] (day : String) :
    (ByDay.empty : ByDay Amount).on day = none := if_neg List.not_mem_nil

def TokscaleReport.figures (report : TokscaleReport Entry) : Figures :=
  ![report.totalInput, report.totalOutput, report.totalCacheRead, report.totalCacheWrite,
    report.totalMessages, report.totalCost]

def DateSpan.join (first second : DateSpan) : DateSpan :=
  ⟨min first.firstMs second.firstMs, max first.lastMs second.lastMs⟩

instance : Std.Associative DateSpan.join where
  assoc first second third := by
    rw [DateSpan.join, DateSpan.join, DateSpan.join, DateSpan.join, min_assoc, max_assoc]

instance : Std.Commutative DateSpan.join where
  comm first second := by rw [DateSpan.join, DateSpan.join, min_comm, max_comm]

/-- What a row reports, without the order of its parts: the totals of its report, its daily usage,
its exact daily totals and its span of time. -/
@[ext]
structure Summary where
  report : Option Figures
  usage : String → Option ℚ≥0
  totals : Option (String → Option Figures)
  span : Option DateSpan

def Summary.add (first second : Summary) : Summary where
  report := Option.merge (· + ·) first.report second.report
  usage day := Option.merge (· + ·) (first.usage day) (second.usage day)
  totals := Option.map₂ (fun first second day => Option.merge (· + ·) (first day) (second day))
    first.totals second.totals
  span := Option.merge DateSpan.join first.span second.span

def UsageResult.summary (result : UsageResult Entry Rest) : Summary where
  report := result.report.map TokscaleReport.figures
  usage day := result.dailyUsage.bind (·.on day)
  totals := result.dailyTotals.map ByDay.on
  span := result.dateSpan

theorem merge_add_assoc {Amount : Type} [AddCommMonoid Amount]
    (first second third : Option Amount) :
    Option.merge (· + ·) (Option.merge (· + ·) first second) third =
      Option.merge (· + ·) first (Option.merge (· + ·) second third) :=
  (@Option.associative_merge Amount (· + ·) ⟨add_assoc⟩).assoc first second third

theorem merge_add_comm {Amount : Type} [AddCommMonoid Amount] (first second : Option Amount) :
    Option.merge (· + ·) first second = Option.merge (· + ·) second first :=
  (@Option.commutative_merge Amount (· + ·) ⟨add_comm⟩).comm first second

instance : Std.Associative Summary.add where
  assoc first second third := by
    ext1
    · exact merge_add_assoc first.report second.report third.report
    · exact funext fun day => merge_add_assoc (first.usage day) (second.usage day)
        (third.usage day)
    · exact Option.map₂_assoc fun first second third => funext fun day =>
        merge_add_assoc (first day) (second day) (third day)
    · exact (Option.associative_merge DateSpan.join).assoc first.span second.span third.span

instance : Std.Commutative Summary.add where
  comm first second := by
    ext1
    · exact merge_add_comm first.report second.report
    · exact funext fun day => merge_add_comm (first.usage day) (second.usage day)
    · exact Option.map₂_comm fun first second => funext fun day =>
        merge_add_comm (first day) (second day)
    · exact (Option.commutative_merge DateSpan.join).comm first.span second.span

theorem figures_mergeReports (first second : Option (TokscaleReport Entry)) :
    (mergeReports first second).map TokscaleReport.figures =
      Option.merge (· + ·) (first.map TokscaleReport.figures)
        (second.map TokscaleReport.figures) := by
  cases first with
  | none =>
    rw [Option.map_none, Option.merge_none_left]
    cases second <;> rfl
  | some first =>
    cases second with
    | none => rfl
    | some second =>
      refine congrArg some (funext fun figure => ?_)
      fin_cases figure <;> rfl

theorem mergeSpans_eq (first second : Option DateSpan) :
    mergeSpans first second = Option.merge DateSpan.join first second := by
  cases first <;> cases second <;> rfl

theorem on_getD_empty (byDay : Option (ByDay ℚ≥0)) (day : String) :
    (byDay.getD .empty).on day = byDay.bind (·.on day) := by
  cases byDay with
  | none => exact ByDay.on_empty day
  | some byDay => rfl

theorem on_mergeDailyTotals (first second : ByDay Figures) :
    (mergeDailyTotals (some first) (some second)).map ByDay.on =
      some fun day => Option.merge (· + ·) (first.on day) (second.on day) := by
  refine congrArg some (funext fun day => ?_)
  rw [ByDay.on_addAll, ByDay.on_addAll, ByDay.on_empty, Option.merge_none_left]
  rfl

theorem summary_mergeRow (provider : Provider) (existing result : UsageResult Entry Rest) :
    (mergeRow provider existing result).summary = existing.summary.add result.summary := by
  ext1
  · exact figures_mergeReports _ _
  · funext day
    have sum : ((existing.dailyUsage.getD .empty).addAll (result.dailyUsage.getD .empty)).on day =
        Option.merge (· + ·) (existing.summary.usage day) (result.summary.usage day) := by
      rw [ByDay.on_addAll, on_getD_empty, on_getD_empty]
      rfl
    show (mergeRow provider existing result).dailyUsage.bind (·.on day) = _
    rw [mergeRow]
    dsimp only
    split
    next empty =>
      refine Eq.trans ?_ sum
      rw [ByDay.on, empty]
      rfl
    next => exact sum
  · show (mergeRow provider existing result).dailyTotals.map ByDay.on =
      Option.map₂ _ (existing.dailyTotals.map ByDay.on) (result.dailyTotals.map ByDay.on)
    rw [mergeRow]
    dsimp only
    cases existing.dailyTotals with
    | none => rfl
    | some first =>
      cases result.dailyTotals with
      | none => rfl
      | some second => exact on_mergeDailyTotals first second
  · exact mergeSpans_eq _ _

/-- The sum of some summaries, if there are any. -/
def sumOf : List Summary → Option Summary
  | [] => none
  | first :: rest => some (rest.foldl Summary.add first)

theorem foldl_merge_some (summaries : List Summary) : ∀ held : Summary,
    (summaries.map some).foldl (Option.merge Summary.add) (some held) =
      some (summaries.foldl Summary.add held) := by
  induction summaries with
  | nil => exact fun held => rfl
  | cons summary rest inductionHypothesis => exact fun held => inductionHypothesis _

theorem sumOf_eq (summaries : List Summary) :
    sumOf summaries = (summaries.map some).foldl (Option.merge Summary.add) none := by
  cases summaries with
  | nil => rfl
  | cons summary rest => exact (foldl_merge_some rest summary).symm

theorem sumOf_perm {first second : List Summary} (permuted : first.Perm second) :
    sumOf first = sumOf second := by
  rw [sumOf_eq, sumOf_eq]
  exact (permuted.map some).foldl_op_eq

/-- A sum of sums is the sum of all. -/
theorem sumOf_append (first second : List Summary) :
    sumOf ((sumOf first).toList ++ second) = sumOf (first ++ second) := by
  cases first with
  | nil => rfl
  | cons summary rest =>
    rw [List.cons_append, sumOf, sumOf, List.foldl_append]
    rfl

theorem sumOf_concat (summaries : List Summary) (last : Summary) :
    sumOf (summaries ++ [last]) = some ((sumOf summaries).elim last (·.add last)) := by
  cases summaries with
  | nil => rfl
  | cons first rest =>
    rw [List.cons_append, sumOf, sumOf, List.foldl_append]
    rfl

/-- What the rows of a group become is what they add up to. -/
theorem summary_gather {provider : Provider} {identity : IdentityName}
    (rows : List (UsageResult Entry Rest)) :
    (Grouping.gather startRow joinRow (.group provider identity) rows).map UsageResult.summary =
      sumOf (rows.map UsageResult.summary) := by
  induction rows using List.reverseRecOn with
  | nil => rfl
  | append_singleton rows row inductionHypothesis =>
    rw [Grouping.gather_concat, List.map_append, List.map_singleton, sumOf_concat,
      ← inductionHypothesis]
    cases Grouping.gather startRow joinRow (.group provider identity) rows with
    | none => rfl
    | some held => exact congrArg some (summary_mergeRow provider held row)

/-- The totals of a group, as a list of at most one. -/
def totalsAt (out : List (UsageResult Entry Rest)) (key : Provider × IdentityName) :
    List Summary :=
  (rowsAt out (.group key.1 key.2)).map UsageResult.summary

/-- The rows that a group is made of. -/
def members (runtime : UsageRuntime) (results : List (UsageResult Entry Rest))
    (key : Provider × IdentityName) : List (UsageResult Entry Rest) :=
  contributions runtime (nativeCoverage results) results (.group key.1 key.2)

theorem totalsAt_eq {out : List (UsageResult Entry Rest)}
    (run : aggregateUsageResults runtime results = some out) (key : Provider × IdentityName) :
    totalsAt out key = (sumOf ((members runtime results key).map UsageResult.summary)).toList := by
  rw [totalsAt, rowsAt_eq run, grouped, members, ← summary_gather]
  cases Grouping.gather startRow joinRow _ _ <;> rfl

/-! ### Any order -/

theorem mem_nativeCoverage {tool : ToolName} {identity : IdentityName} :
    (tool, identity) ∈ nativeCoverage results ↔ ∃ result ∈ results,
      result.sourceTool = some tool ∧ result.report.isSome = true ∧
        (tool = .claude ∨ tool = .codex) ∧ result.identity = identity := by
  rw [nativeCoverage, List.mem_filterMap]
  refine exists_congr fun result => and_congr_right fun _ => ?_
  cases result.sourceTool with
  | none =>
    refine iff_of_false (Option.some_ne_none _).symm fun holds => ?_
    exact Option.some_ne_none _ holds.1.symm
  | some other =>
    have test : (result.report.isSome && (other = .claude || other = .codex)) = true ↔
        result.report.isSome = true ∧ (other = .claude ∨ other = .codex) := by simp
    dsimp only
    by_cases native : (result.report.isSome && (other = .claude || other = .codex)) = true
    · rw [if_pos native, Option.some.injEq, Prod.mk.injEq, Option.some.injEq]
      obtain ⟨reports, isNative⟩ := test.mp native
      constructor
      · rintro ⟨rfl, rfl⟩
        exact ⟨rfl, reports, isNative, rfl⟩
      · rintro ⟨rfl, -, -, rfl⟩
        exact ⟨rfl, rfl⟩
    · rw [if_neg native, Option.some.injEq]
      refine iff_of_false (Option.some_ne_none _).symm ?_
      rintro ⟨rfl, reports, isNative, -⟩
      exact native (test.mpr ⟨reports, isNative⟩)

theorem isCovered_congr {first second : List (ToolName × IdentityName)}
    (same : ∀ entry, entry ∈ first ↔ entry ∈ second) (result : UsageResult Entry Rest) :
    isCovered first result = isCovered second result := by
  rw [isCovered, isCovered]
  refine congrArg (fun test => Option.any test result.nativeCoverageTool) (funext fun tool => ?_)
  rw [Bool.eq_iff_iff, List.contains_iff_mem, List.contains_iff_mem]
  exact same _

theorem mem_nativeCoverage_perm {other : List (UsageResult Entry Rest)}
    (permuted : other.Perm results) (entry : ToolName × IdentityName) :
    entry ∈ nativeCoverage other ↔ entry ∈ nativeCoverage results :=
  (permuted.filterMap _).mem_iff

theorem members_perm {other : List (UsageResult Entry Rest)} (permuted : other.Perm results)
    (key : Provider × IdentityName) :
    (members runtime other key).Perm (members runtime results key) := by
  have same : contributions runtime (nativeCoverage other) other (.group key.1 key.2) =
      contributions runtime (nativeCoverage results) other (.group key.1 key.2) :=
    List.filter_congr fun result _ => by
      rw [isCovered_congr (mem_nativeCoverage_perm permuted)]
  rw [members, same]
  exact permuted.filter _

theorem placeable_perm {other : List (UsageResult Entry Rest)} (permuted : other.Perm results)
    (placeable : Placeable runtime (nativeCoverage results) results) :
    Placeable runtime (nativeCoverage other) other := by
  intro result member uncovered
  rw [isCovered_congr (mem_nativeCoverage_perm permuted)] at uncovered
  exact placeable result (permuted.mem_iff.mp member) uncovered

/-! ### Exact daily totals -/

def UsageResult.figures (result : UsageResult Entry Rest) : Figures :=
  (result.report.map TokscaleReport.figures).getD 0

/-- The daily totals of a row are exact: they sum to its report. -/
def UsageResult.Exact (result : UsageResult Entry Rest) : Prop :=
  ∃ days, result.dailyTotals = some days ∧ Tally.total days.days = result.figures

theorem figures_mergeRow (provider : Provider) (existing result : UsageResult Entry Rest) :
    (mergeRow provider existing result).figures = existing.figures + result.figures := by
  rw [UsageResult.figures, mergeRow, figures_mergeReports, UsageResult.figures,
    UsageResult.figures]
  cases existing.report.map TokscaleReport.figures with
  | none => rw [Option.merge_none_left, Option.getD_none, zero_add]
  | some first =>
    cases result.report.map TokscaleReport.figures with
    | none => exact (add_zero first).symm
    | some second => rfl

theorem Exact.mergeRow {existing result : UsageResult Entry Rest} (provider : Provider)
    (isExact : existing.Exact) (alsoExact : result.Exact) :
    (mergeRow provider existing result).Exact := by
  obtain ⟨first, isFirst, firstTotal⟩ := isExact
  obtain ⟨second, isSecond, secondTotal⟩ := alsoExact
  refine ⟨(ByDay.empty.addAll first).addAll second, ?_, ?_⟩
  · show (if existing.dailyTotals.isSome && result.dailyTotals.isSome then
      mergeDailyTotals existing.dailyTotals result.dailyTotals else none) = _
    rw [isFirst, isSecond]
    rfl
  · have total : Tally.total ((ByDay.empty.addAll first).addAll second).days =
        Tally.total (ByDay.empty.addAll first).days + Tally.total second.days :=
      Tally.total_addAll _ _
    have start : Tally.total (ByDay.empty.addAll first).days = 0 + Tally.total first.days :=
      Tally.total_addAll _ _
    rw [total, start, zero_add, firstTotal, secondTotal, figures_mergeRow]

/-- A group has daily totals only if all its rows have them, and exact ones if all of theirs are. -/
theorem exact_gather {provider : Provider} {identity : IdentityName}
    (rows : List (UsageResult Entry Rest)) : ∀ held,
      Grouping.gather startRow joinRow (.group provider identity) rows = some held →
        (held.dailyTotals.isSome = true → ∀ row ∈ rows, row.dailyTotals.isSome = true) ∧
          ((∀ row ∈ rows, row.Exact) → held.Exact) := by
  induction rows using List.reverseRecOn with
  | nil => exact fun held gathered => by cases gathered
  | append_singleton rows row inductionHypothesis =>
    intro held gathered
    rw [Grouping.gather_concat] at gathered
    obtain rfl := Option.some.inj gathered
    cases earlier : Grouping.gather startRow joinRow (.group provider identity) rows with
    | none =>
      have nothing : rows = [] := by
        cases rows with
        | nil => rfl
        | cons first rest => cases earlier
      subst nothing
      exact ⟨fun present => List.forall_mem_singleton.mpr present,
        fun isExact => isExact row (.head _)⟩
    | some before =>
      obtain ⟨presence, exactness⟩ := inductionHypothesis before earlier
      rw [Option.elim_some]
      refine ⟨fun present => ?_, fun isExact => ?_⟩
      · have both : before.dailyTotals.isSome = true ∧ row.dailyTotals.isSome = true := by
          change Option.isSome (if before.dailyTotals.isSome && row.dailyTotals.isSome then
            mergeDailyTotals before.dailyTotals row.dailyTotals else none) = true at present
          by_contra notBoth
          rw [← Bool.and_eq_true] at notBoth
          rw [if_neg notBoth] at present
          exact Bool.false_ne_true present
        exact List.forall_mem_append.mpr ⟨presence both.1, List.forall_mem_singleton.mpr both.2⟩
      · obtain ⟨earlierExact, rowExact⟩ := List.forall_mem_append.mp isExact
        exact Exact.mergeRow provider (exactness earlierExact) (rowExact row (.head _))

/-! ### Failures of sources -/

def failuresOf (results : List (UsageResult Entry Rest)) : List (UsageResult Entry Rest) :=
  results.filter (·.sourceOnlyError)

/-- Whose failure it is. -/
def UsageResult.source (result : UsageResult Entry Rest) : Option ToolName × IdentityName :=
  (result.sourceTool, result.identity)

theorem mem_failuresOf {result : UsageResult Entry Rest} :
    result ∈ failuresOf results ↔ result ∈ results ∧ result.sourceOnlyError = true :=
  List.mem_filter

theorem not_covered_of_failure {result : UsageResult Entry Rest}
    (failed : result.sourceOnlyError = true) : isCovered coverage result = false := by
  rw [isCovered, (result.onlyError failed).2]
  rfl

theorem gather_failure {sourceTool : Option ToolName} {identity : IdentityName}
    (rows : List (UsageResult Entry Rest)) :
    Grouping.gather startRow joinRow (.sourceOnlyError sourceTool identity) rows =
      rows.getLast? := by
  induction rows using List.reverseRecOn with
  | nil => rfl
  | append_singleton rows row inductionHypothesis =>
    rw [Grouping.gather_concat, List.getLast?_concat]
    cases Grouping.gather startRow joinRow (.sourceOnlyError sourceTool identity) rows <;> rfl

/-- Of the failures of one source the last one is left. -/
theorem mem_failures_out {out : List (UsageResult Entry Rest)}
    (run : aggregateUsageResults runtime results = some out) {row : UsageResult Entry Rest} :
    row ∈ failuresOf out ↔ row.sourceOnlyError = true ∧
      (contributions runtime (nativeCoverage results) results
        (.sourceOnlyError row.sourceTool row.identity)).getLast? = some row := by
  have here := rowsAt_eq run (.sourceOnlyError row.sourceTool row.identity)
  rw [grouped, gather_failure] at here
  rw [mem_failuresOf, ← Option.mem_toList, ← here, rowsAt, List.mem_filter, decide_eq_true_iff]
  constructor
  · rintro ⟨member, failed⟩
    exact ⟨failed, member, failed, rfl, rfl⟩
  · rintro ⟨failed, member, -⟩
    exact ⟨member, failed⟩

theorem nodup_sources_out {out : List (UsageResult Entry Rest)}
    (run : aggregateUsageResults runtime results = some out) :
    ((failuresOf out).map UsageResult.source).Nodup := by
  obtain ⟨table, distinct, rfl, isGrouped⟩ := exists_table run
  have belongs : ∀ entry ∈ table, Belongs entry.1 entry.2 := fun entry member =>
    belongs_grouped ((isGrouped entry.1).symm.trans
      ((Grouping.mem_iff_get distinct entry.1 entry.2).mp member))
  rw [failuresOf, List.filter_map, List.map_map]
  refine List.Nodup.of_map (fun source => RowKey.sourceOnlyError source.1 source.2) ?_
  have keys : (table.filter ((·.sourceOnlyError) ∘ Prod.snd)).map
      ((fun source => RowKey.sourceOnlyError source.1 source.2) ∘ UsageResult.source ∘ Prod.snd) =
      (table.filter ((·.sourceOnlyError) ∘ Prod.snd)).map Prod.fst := by
    refine List.map_congr_left fun entry member => ?_
    obtain ⟨inTable, failed⟩ := List.mem_filter.mp member
    exact belongs_unique ⟨failed, rfl, rfl⟩ (belongs entry inTable)
  rw [List.map_map, keys]
  exact distinct.sublist (List.filter_sublist.map _)

/-- No failure is lost just when no two are of the same source. -/
theorem failures_perm_iff {out : List (UsageResult Entry Rest)}
    (run : aggregateUsageResults runtime results = some out) :
    (failuresOf out).Perm (failuresOf results) ↔
      ((failuresOf results).map UsageResult.source).Nodup := by
  have outDistinct := nodup_sources_out run
  constructor
  · exact fun permuted => (permuted.map UsageResult.source).nodup_iff.mp outDistinct
  intro distinct
  rw [List.perm_ext_iff_of_nodup (List.Nodup.of_map _ outDistinct) (List.Nodup.of_map _ distinct)]
  intro row
  rw [mem_failures_out run, mem_failuresOf]
  constructor
  · rintro ⟨failed, isLast⟩
    exact ⟨(mem_contributions.mp (List.mem_of_getLast? isLast)).1, failed⟩
  · rintro ⟨member, failed⟩
    refine ⟨failed, ?_⟩
    have contributes : row ∈ contributions runtime (nativeCoverage results) results
        (.sourceOnlyError row.sourceTool row.identity) :=
      mem_contributions.mpr ⟨member, not_covered_of_failure failed,
        rowKey_eq_failure.mpr ⟨failed, rfl, rfl⟩⟩
    obtain ⟨last, isLast⟩ := List.getLast?_isSome.mpr (List.ne_nil_of_mem contributes) |>
      Option.isSome_iff_exists.mp
    rw [isLast]
    obtain ⟨lastMember, -, lastKey⟩ := mem_contributions.mp (List.mem_of_getLast? isLast)
    obtain ⟨lastFailed, sameTool, sameIdentity⟩ := rowKey_eq_failure.mp lastKey
    exact congrArg some (List.inj_on_of_nodup_map distinct
      (mem_failuresOf.mpr ⟨lastMember, lastFailed⟩) (mem_failuresOf.mpr ⟨member, failed⟩)
      (Prod.ext sameTool sameIdentity))

/-! ### One aggregation -/

/-- Every row is counted once, in any order. -/
structure Aggregates (runtime : UsageRuntime) (results out : List (UsageResult Entry Rest)) :
    Prop where
  returned : aggregateUsageResults runtime results = some out
  anyOrder : ∀ other, other.Perm results → ∃ otherOut,
    aggregateUsageResults runtime other = some otherOut ∧
      ∀ key, totalsAt otherOut key = totalsAt out key
  sums : ∀ key,
    totalsAt out key = (sumOf ((members runtime results key).map UsageResult.summary)).toList
  once : ∀ row ∈ results, row.report.isSome = true →
    if isCovered (nativeCoverage results) row = true then ∀ key, row ∉ members runtime results key
    else ∃! key, row ∈ members runtime results key
  exact : ∀ key : Provider × IdentityName, ∀ row ∈ rowsAt out (.group key.1 key.2),
    (row.dailyTotals.isSome = true →
      ∀ member ∈ members runtime results key, member.dailyTotals.isSome = true) ∧
    ((∀ member ∈ members runtime results key, member.Exact) → row.Exact)
  failures : (failuresOf out).Perm (failuresOf results)

/-- What the rows were read as: the provider of each is a text. -/
def Texts (results : List (UsageResult Entry Rest)) : Prop :=
  ∀ row ∈ results, ∃ units, row.provider = .text units

theorem canonical_of_text (units : Units) :
    ∃ provider, canonicalUsageProvider runtime (.text units) = some provider := by
  rw [canonicalUsageProvider]
  dsimp only
  split
  · exact ⟨_, rfl⟩
  · exact ⟨_, rfl⟩

theorem placeable_of_texts (texts : Texts results) : Placeable runtime coverage results := by
  intro row member _
  obtain ⟨units, isText⟩ := texts row member
  obtain ⟨provider, isProvider⟩ := @canonical_of_text runtime units
  rw [rowKey, isText, isProvider]
  split
  · exact Option.some_ne_none _
  · exact Option.some_ne_none _

/-- One aggregation loses nothing but failures of one source. -/
theorem exists_aggregates_iff (texts : Texts results) :
    (∃ out, Aggregates runtime results out) ↔
      ((failuresOf results).map UsageResult.source).Nodup := by
  constructor
  · rintro ⟨out, aggregates⟩
    exact (failures_perm_iff aggregates.returned).mp aggregates.failures
  intro distinct
  have placeable : Placeable runtime (nativeCoverage results) results := placeable_of_texts texts
  obtain ⟨out, run⟩ := exists_aggregate_iff.mpr placeable
  refine ⟨out, run, fun other permuted => ?_, totalsAt_eq run, fun row member reports => ?_,
    fun key row isRow => ?_, (failures_perm_iff run).mpr distinct⟩
  · obtain ⟨otherOut, otherRun⟩ := exists_aggregate_iff.mpr (placeable_perm permuted placeable)
    refine ⟨otherOut, otherRun, fun key => ?_⟩
    rw [totalsAt_eq run, totalsAt_eq otherRun,
      sumOf_perm ((members_perm permuted key).map UsageResult.summary)]
  · cases covered : isCovered (nativeCoverage results) row with
    | true =>
      rw [if_pos rfl]
      exact fun key isMember => Bool.noConfusion
        (covered.symm.trans (mem_contributions.mp isMember).2.1)
    | false =>
      rw [if_neg Bool.false_ne_true]
      have ordinary : row.sourceOnlyError = false := by
        by_contra failed
        rw [(row.onlyError (Bool.not_eq_false _ ▸ failed)).1] at reports
        exact Bool.false_ne_true reports
      obtain ⟨units, isText⟩ := texts row member
      obtain ⟨provider, isProvider⟩ := @canonical_of_text runtime units
      rw [← isText] at isProvider
      refine ⟨(provider, row.identity), mem_contributions.mpr ⟨member, covered,
        rowKey_eq_group.mpr ⟨ordinary, isProvider, rfl⟩⟩, fun other isMember => ?_⟩
      obtain ⟨-, otherProvider, named⟩ := rowKey_eq_group.mp (mem_contributions.mp isMember).2.2
      exact Prod.ext (Option.some.inj (otherProvider.symm.trans isProvider)) named.symm
  · rw [rowsAt_eq run, Option.mem_toList] at isRow
    exact exact_gather _ row isRow

end AiSwitcher.UsageRows
