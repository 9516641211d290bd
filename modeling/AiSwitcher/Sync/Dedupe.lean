/-
This file embeds the record merge of `src/sync/dedupe.ts`. A session history is a
list of records; `mergeJsonlLineSetsOnto` adds to a base every occurrence that some
source has and the base does not, in source order, and never touches the base.

The loop keeps three counters per record: how often the sources want it, how often
it is present, and how often the current source has shown it. The invariant of one
source is that a record is present as often as it was before the source or as often
as the source has shown it, whichever is more; so the whole merge is the union of
multisets that takes the larger multiplicity.
-/

import Mathlib.Data.List.Sort
import Mathlib.Data.Multiset.UnionInter

namespace AiSwitcher

variable {Line : Type} [DecidableEq Line]

/-! ### The loops -/

/-- A `Map<string, number>` read with `?? 0`. -/
abbrev Counts (Line : Type) := Line → Nat

def emptyCounts : Counts Line := fun _ => 0

def multiset (lines : List Line) : Counts Line :=
  lines.foldl (fun counts line => Function.update counts line (counts line + 1)) emptyCounts

/-- How often the sources want each record: as often as the source that has it most often. -/
def desiredCounts (sources : List (List Line)) : Counts Line :=
  sources.foldl (fun desired lines line => max (desired line) (multiset lines line)) emptyCounts

/-- The variables of the two inner loops. -/
structure MergeState (Line : Type) where
  merged : List Line
  present : Counts Line
  seenInSource : Counts Line

/-- The body of the loop over the lines of one source. -/
def mergeLine (desired : Counts Line) (state : MergeState Line) (line : Line) : MergeState Line :=
  let occurrence := state.seenInSource line + 1
  let seenInSource := Function.update state.seenInSource line occurrence
  if occurrence ≤ state.present line then { state with seenInSource }
  else if desired line ≤ state.present line then { state with seenInSource }
  else
    { merged := state.merged ++ [line]
      present := Function.update state.present line (state.present line + 1)
      seenInSource }

/-- The body of the loop over the sources. -/
def mergeSource (desired : Counts Line) (state : MergeState Line) (lines : List Line) :
    MergeState Line :=
  lines.foldl (mergeLine desired) { state with seenInSource := emptyCounts }

def mergeJsonlLineSetsOnto (base : List Line) (sources : List (List Line)) : List Line :=
  (sources.foldl (mergeSource (desiredCounts sources))
    { merged := base, present := multiset base, seenInSource := emptyCounts }).merged

/-- The longest source, the first of several, is the base. -/
def mergeJsonlLineSets (sources : List (List Line)) : List Line :=
  match sources.mergeSort fun first second => decide (second.length ≤ first.length) with
  | [] => []
  | base :: _ => mergeJsonlLineSetsOnto base sources

/-! ### The counters -/

theorem multiset_eq_count (lines : List Line) (line : Line) :
    multiset lines line = lines.count line := by
  have fold : ∀ counts : Counts Line,
      lines.foldl (fun counts line => Function.update counts line (counts line + 1)) counts line =
        counts line + lines.count line := by
    induction lines with
    | nil => simp
    | cons head rest inductionHypothesis =>
      intro counts
      rw [List.foldl_cons, inductionHypothesis, List.count_cons]
      by_cases same : head = line
      · subst same
        simp
        omega
      · have different : line ≠ head := fun equal => same equal.symm
        simp [same, different]
  rw [multiset, fold, emptyCounts, Nat.zero_add]

/-- The most often any single source has a record. -/
def mostIn (sources : List (List Line)) (line : Line) : Nat :=
  (sources.map (List.count line)).foldr max 0

theorem count_le_mostIn {sources : List (List Line)} {lines : List Line}
    (member : lines ∈ sources) (line : Line) : lines.count line ≤ mostIn sources line := by
  induction sources with
  | nil => cases member
  | cons head rest inductionHypothesis =>
    rw [mostIn, List.map_cons, List.foldr_cons]
    rcases List.mem_cons.mp member with rfl | inRest
    · exact le_max_left _ _
    · exact le_trans (inductionHypothesis inRest) (le_max_right _ _)

theorem mostIn_le {sources : List (List Line)} {line : Line} {bound : Nat}
    (each : ∀ lines ∈ sources, lines.count line ≤ bound) : mostIn sources line ≤ bound := by
  induction sources with
  | nil => exact Nat.zero_le _
  | cons head rest inductionHypothesis =>
    rw [List.forall_mem_cons] at each
    exact max_le each.1 (inductionHypothesis each.2)

theorem desiredCounts_eq_mostIn (sources : List (List Line)) (line : Line) :
    desiredCounts sources line = mostIn sources line := by
  have fold : ∀ desired : Counts Line,
      sources.foldl (fun desired lines line => max (desired line) (multiset lines line)) desired
        line = max (desired line) (mostIn sources line) := by
    induction sources with
    | nil => simp [mostIn]
    | cons lines rest inductionHypothesis =>
      intro desired
      rw [List.foldl_cons, inductionHypothesis, multiset_eq_count, max_assoc]
      rfl
  rw [desiredCounts, fold, emptyCounts, Nat.zero_max]

/-! ### One source -/

/-- `present` counts what has been merged. -/
def MergeState.Counted (state : MergeState Line) : Prop :=
  ∀ line, state.present line = state.merged.count line

/-- A line the source wants is skipped while it is present often enough and appended otherwise: the
second test of the loop never decides, because the source itself is among those that want it. -/
theorem mergeLine_cases {desired : Counts Line} {state : MergeState Line} {line : Line}
    (wanted : state.seenInSource line < desired line) :
    (state.seenInSource line < state.present line ∧
      mergeLine desired state line =
        { state with
          seenInSource := Function.update state.seenInSource line (state.seenInSource line + 1) }) ∨
    (state.present line ≤ state.seenInSource line ∧
      mergeLine desired state line =
        { merged := state.merged ++ [line]
          present := Function.update state.present line (state.present line + 1)
          seenInSource := Function.update state.seenInSource line (state.seenInSource line + 1) }) := by
  by_cases enough : state.seenInSource line + 1 ≤ state.present line
  · exact Or.inl ⟨enough, if_pos enough⟩
  · refine Or.inr ⟨by omega, ?_⟩
    have lacking : ¬ desired line ≤ state.present line := by omega
    show (if _ then _ else if _ then _ else _) = _
    rw [if_neg enough, if_neg lacking]

theorem update_count_append (counts : Counts Line) (lines : List Line) (line : Line)
    (counted : ∀ other, counts other = lines.count other) (other : Line) :
    Function.update counts line (counts line + 1) other = (lines ++ [line]).count other := by
  rw [List.count_append, List.count_singleton]
  by_cases same : other = line
  · subst same
    simp [counted]
  · have different : line ≠ other := fun equal => same equal.symm
    simp [same, different, counted]

/-- The invariant of the loop over one source, of which `shown` has been read: a record is merged
as often as it was at the `start` or as often as the source has shown it. -/
structure SourceInvariant (start shown : List Line) (state : MergeState Line) : Prop where
  counted : state.Counted
  seen : ∀ line, state.seenInSource line = shown.count line
  growth : ∀ line, state.merged.count line = max (start.count line) (shown.count line)
  extended : start <+: state.merged

theorem SourceInvariant.step {desired : Counts Line} {start shown : List Line}
    {state : MergeState Line} (holds : SourceInvariant start shown state) {line : Line}
    (wanted : (shown ++ [line]).count line ≤ desired line) :
    SourceInvariant start (shown ++ [line]) (mergeLine desired state line) := by
  have shownLine : (shown ++ [line]).count line = shown.count line + 1 := by simp
  have shownOther : ∀ other, other ≠ line → (shown ++ [line]).count other = shown.count other := by
    intro other different
    rw [List.count_append, List.count_singleton]
    simp [Ne.symm different]
  have seenLine := holds.seen line
  have presentLine := holds.counted line
  have growthLine := holds.growth line
  have seen := update_count_append state.seenInSource shown line holds.seen
  obtain ⟨enough, equal⟩ | ⟨lacking, equal⟩ :=
    @mergeLine_cases Line _ desired state line (by omega)
  · rw [equal]
    refine ⟨holds.counted, seen, fun other => ?_, holds.extended⟩
    by_cases same : other = line
    · subst same
      show state.merged.count other = _
      omega
    · rw [shownOther other same]
      exact holds.growth other
  · rw [equal]
    refine ⟨update_count_append state.present state.merged line holds.counted, seen,
      fun other => ?_, holds.extended.trans (List.prefix_append _ _)⟩
    show (state.merged ++ [line]).count other = _
    rw [List.count_append, List.count_singleton]
    by_cases same : other = line
    · subst same
      rw [beq_self_eq_true, if_pos rfl]
      omega
    · have different : line ≠ other := fun equal => same equal.symm
      rw [shownOther other same, holds.growth other]
      simp [different]

/-- What one source does. -/
theorem mergeSource_spec {desired : Counts Line} (state : MergeState Line) (lines : List Line)
    (counted : state.Counted) (wanted : ∀ line, lines.count line ≤ desired line) :
    (mergeSource desired state lines).Counted ∧
      (∀ line, (mergeSource desired state lines).merged.count line =
        max (state.merged.count line) (lines.count line)) ∧
      state.merged <+: (mergeSource desired state lines).merged := by
  -- The induction is on what is left of the source; `shown` is what the loop has read.
  have run : ∀ (left shown : List Line) (current : MergeState Line), shown ++ left = lines →
      SourceInvariant state.merged shown current →
      SourceInvariant state.merged lines (left.foldl (mergeLine desired) current) := by
    intro left
    induction left with
    | nil =>
      intro shown current whole holds
      rw [List.append_nil] at whole
      exact whole ▸ holds
    | cons line rest inductionHypothesis =>
      intro shown current whole holds
      have wantedLine : (shown ++ [line]).count line ≤ desired line := by
        refine le_trans ?_ (wanted line)
        have split : (shown ++ [line]) ++ rest = lines := by simpa using whole
        rw [← split]
        exact List.Sublist.count_le line (List.sublist_append_left _ _)
      exact inductionHypothesis (shown ++ [line]) _ (by simpa using whole) (holds.step wantedLine)
  have start : SourceInvariant state.merged [] { state with seenInSource := emptyCounts } :=
    ⟨counted, fun _ => rfl, fun line => by rw [List.count_nil, Nat.max_zero], List.prefix_refl _⟩
  have finish := run lines [] _ (List.nil_append _) start
  exact ⟨finish.counted, finish.growth, finish.extended⟩

/-! ### The whole merge -/

/-- The result extends the base, and it has every record as often as the base or as the source
that has it most often. -/
theorem mergeJsonlLineSetsOnto_spec (base : List Line) (sources : List (List Line)) :
    base <+: mergeJsonlLineSetsOnto base sources ∧
      ∀ line, (mergeJsonlLineSetsOnto base sources).count line =
        max (base.count line) (mostIn sources line) := by
  have run : ∀ (left : List (List Line)) (state : MergeState Line),
      (∀ lines ∈ left, ∀ line, lines.count line ≤ desiredCounts sources line) → state.Counted →
      state.merged <+: (left.foldl (mergeSource (desiredCounts sources)) state).merged ∧
        ∀ line, (left.foldl (mergeSource (desiredCounts sources)) state).merged.count line =
          max (state.merged.count line) (mostIn left line) := by
    intro left
    induction left with
    | nil =>
      intro state _ _
      exact ⟨List.prefix_refl _, fun line => by simp [mostIn]⟩
    | cons lines rest inductionHypothesis =>
      intro state wanted counted
      rw [List.forall_mem_cons] at wanted
      obtain ⟨nextCounted, growth, extends_⟩ := mergeSource_spec state lines counted wanted.1
      obtain ⟨restExtends, restGrowth⟩ := inductionHypothesis _ wanted.2 nextCounted
      refine ⟨extends_.trans restExtends, fun line => ?_⟩
      rw [List.foldl_cons, restGrowth, growth, max_assoc]
      rfl
  refine run sources ⟨base, multiset base, emptyCounts⟩ (fun lines member line => ?_)
    (multiset_eq_count base)
  rw [desiredCounts_eq_mostIn]
  exact count_le_mostIn member line

theorem prefix_mergeJsonlLineSetsOnto (base : List Line) (sources : List (List Line)) :
    base <+: mergeJsonlLineSetsOnto base sources :=
  (mergeJsonlLineSetsOnto_spec base sources).1

theorem count_mergeJsonlLineSetsOnto (base : List Line) (sources : List (List Line))
    (line : Line) :
    (mergeJsonlLineSetsOnto base sources).count line =
      max (base.count line) (mostIn sources line) :=
  (mergeJsonlLineSetsOnto_spec base sources).2 line

/-- With one source the merge is the union of multisets. -/
theorem coe_mergeJsonlLineSetsOnto_singleton (base source : List Line) :
    (mergeJsonlLineSetsOnto base [source] : Multiset Line) = (base : Multiset Line) ∪ source := by
  refine Multiset.ext.mpr fun line => ?_
  rw [Multiset.coe_count, Multiset.count_union, Multiset.coe_count, Multiset.coe_count,
    count_mergeJsonlLineSetsOnto]
  simp [mostIn]

/-- A merge with sources that the base already covers adds nothing. -/
theorem mergeJsonlLineSetsOnto_of_covered (base : List Line) (sources : List (List Line))
    (covered : ∀ line, mostIn sources line ≤ base.count line) :
    mergeJsonlLineSetsOnto base sources = base := by
  obtain ⟨added, whole⟩ := prefix_mergeJsonlLineSetsOnto base sources
  have none : ∀ line, added.count line = 0 := by
    intro line
    have total := count_mergeJsonlLineSetsOnto base sources line
    rw [← whole, List.count_append, max_eq_left (covered line)] at total
    omega
  have empty : added = [] := by
    refine List.eq_nil_iff_forall_not_mem.mpr fun line member => ?_
    exact absurd (none line) (Nat.ne_of_gt (List.count_pos_iff.mpr member))
  rw [← whole, empty, List.append_nil]

theorem count_mergeJsonlLineSets (sources : List (List Line)) (line : Line) :
    (mergeJsonlLineSets sources).count line = mostIn sources line := by
  have sorted := List.mergeSort_perm sources fun first second =>
    decide (second.length ≤ first.length)
  unfold mergeJsonlLineSets
  split
  · rename_i empty
    rw [empty] at sorted
    rw [List.nil_perm.mp sorted]
    rfl
  · rename_i base rest found
    have member : base ∈ sources := sorted.mem_iff.mp (found ▸ List.mem_cons_self)
    rw [count_mergeJsonlLineSetsOnto, max_eq_right (count_le_mostIn member line)]

/-- The merge is a union of multisets that only ever appends to the base. Merging sources again
adds nothing, and two hosts that merge each other's histories, one after the other in either order
or both from the same starting point, hold the same records equally often. -/
theorem mergeJsonlLineSets_max_union (base : List Line) (sources : List (List Line)) :
    base <+: mergeJsonlLineSetsOnto base sources ∧
      (∀ line, (mergeJsonlLineSetsOnto base sources).count line =
        max (base.count line) (mostIn sources line)) ∧
      (∀ line, (mergeJsonlLineSets sources).count line = mostIn sources line) ∧
      (∀ again, again ⊆ sources →
        mergeJsonlLineSetsOnto (mergeJsonlLineSetsOnto base sources) again =
          mergeJsonlLineSetsOnto base sources) ∧
      ∀ mine theirs : List Line,
        (mergeJsonlLineSetsOnto mine [theirs]).Perm (mergeJsonlLineSetsOnto theirs [mine]) ∧
        (mergeJsonlLineSetsOnto theirs [mergeJsonlLineSetsOnto mine [theirs]]).Perm
          (mergeJsonlLineSetsOnto mine [theirs]) ∧
        (mergeJsonlLineSetsOnto mine [mergeJsonlLineSetsOnto theirs [mine]]).Perm
          (mergeJsonlLineSetsOnto theirs [mine]) := by
  refine ⟨prefix_mergeJsonlLineSetsOnto base sources, count_mergeJsonlLineSetsOnto base sources,
    count_mergeJsonlLineSets sources, fun again subset => ?_, fun mine theirs => ?_⟩
  · refine mergeJsonlLineSetsOnto_of_covered _ _ fun line => ?_
    refine mostIn_le fun lines member => ?_
    rw [count_mergeJsonlLineSetsOnto]
    exact le_max_of_le_right (count_le_mostIn (subset member) line)
  · simp only [← Multiset.coe_eq_coe, coe_mergeJsonlLineSetsOnto_singleton]
    refine ⟨Multiset.union_comm _ _, ?_, ?_⟩ <;> refine Multiset.ext.mpr fun line => ?_ <;>
      simp only [Multiset.count_union] <;> omega

/-- A record two sources share is kept as often as the source that has it most often. -/
example : mergeJsonlLineSetsOnto [1, 2] [[2, 2, 3], [3, 1]] = [1, 2, 2, 3] := by decide

end AiSwitcher
