/-
This file embeds `merge_ranges` of `apps/host/crates/core/src/device.rs`. The ranges of
a write plan are sorted by start and merged from the left: a range that begins within
or directly behind the last merged one extends it, any other is pushed.

The sort leaves the last merged range beginning no later than every range still to
come, which is what makes one comparison with it enough. The ends are computed with
saturating arithmetic; where no end overflows they are the ends.
-/

import Mathlib.Data.List.Sort
import Mathlib.Tactic.Linarith

namespace AiSwitcher.Host

structure ByteRange where
  start : UInt64
  length : UInt64
  deriving DecidableEq

namespace ByteRange

/-! ### Saturating arithmetic -/

/-- `u64::saturating_add` -/
def saturatingAdd (left right : UInt64) : UInt64 :=
  if left.toNat + right.toNat < 2 ^ 64 then left + right else .ofNat (2 ^ 64 - 1)

/-- `u64::saturating_sub` -/
def saturatingSub (left right : UInt64) : UInt64 :=
  if right ≤ left then left - right else 0

theorem toNat_saturatingAdd {left right : UInt64} (fits : left.toNat + right.toNat < 2 ^ 64) :
    (saturatingAdd left right).toNat = left.toNat + right.toNat := by
  rw [saturatingAdd, if_pos fits, UInt64.toNat_add, Nat.mod_eq_of_lt fits]

theorem toNat_saturatingSub {left right : UInt64} (below : right ≤ left) :
    (saturatingSub left right).toNat = left.toNat - right.toNat := by
  rw [saturatingSub, if_pos below, UInt64.toNat_sub_of_le _ _ below]

theorem toNat_max (first second : UInt64) :
    (max first second).toNat = max first.toNat second.toNat := by
  show (if first ≤ second then second else first).toNat = _
  by_cases below : first ≤ second
  · rw [if_pos below, max_eq_right (UInt64.le_iff_toNat_le.mp below)]
  · rw [if_neg below, max_eq_left]
    rw [UInt64.le_iff_toNat_le] at below
    omega

/-! ### The loop -/

/-- The body of the loop. The merged ranges stand with the last one first. -/
def mergeRange (merged : List ByteRange) (range : ByteRange) : List ByteRange :=
  let stop := saturatingAdd range.start range.length
  match merged with
  | [] => [range]
  | last :: before =>
      let lastStop := saturatingAdd last.start last.length
      if range.start ≤ lastStop then
        { last with length := saturatingSub (max lastStop stop) last.start } :: before
      else range :: last :: before

def mergeRanges (ranges : List ByteRange) : List ByteRange :=
  let sorted := ranges.mergeSort fun first second => decide (first.start ≤ second.start)
  (sorted.foldl mergeRange []).reverse

/-! ### The bytes of a range -/

/-- The first byte behind a range. -/
def stop (range : ByteRange) : Nat :=
  range.start.toNat + range.length.toNat

/-- The end does not overflow. -/
def Fits (range : ByteRange) : Prop :=
  range.stop < 2 ^ 64

def Covers (range : ByteRange) (byte : Nat) : Prop :=
  range.start.toNat ≤ byte ∧ byte < range.stop

/-- At least one byte lies between the ranges. -/
def Before (first second : ByteRange) : Prop :=
  first.start < second.start ∧ first.stop < second.start.toNat

theorem before_iff {first second : ByteRange} :
    first.Before second ↔ first.stop < second.start.toNat := by
  refine and_iff_right_of_imp fun apart => UInt64.lt_iff_toNat_lt.mpr ?_
  exact lt_of_le_of_lt (Nat.le_add_right _ _) apart

/-- A range that begins within or directly behind another one, joined to it. -/
theorem join_spec {last range : ByteRange} (lastFits : last.Fits) (fits : range.Fits)
    (sorted : last.start ≤ range.start) (meets : range.start.toNat ≤ last.stop) :
    ∃ joined : ByteRange, { last with
        length := saturatingSub (max (saturatingAdd last.start last.length)
          (saturatingAdd range.start range.length)) last.start } = joined ∧
      joined.start = last.start ∧ joined.stop = max last.stop range.stop ∧
      ∀ byte, joined.Covers byte ↔ last.Covers byte ∨ range.Covers byte := by
  refine ⟨_, rfl, rfl, ?_⟩
  have lastStop : (saturatingAdd last.start last.length).toNat = last.stop :=
    toNat_saturatingAdd lastFits
  have rangeStop : (saturatingAdd range.start range.length).toNat = range.stop :=
    toNat_saturatingAdd fits
  have startBelow : last.start.toNat ≤ last.stop := Nat.le_add_right _ _
  generalize saturatingAdd last.start last.length = lastEnd at lastStop
  generalize saturatingAdd range.start range.length = rangeEnd at rangeStop
  have whole : (max lastEnd rangeEnd).toNat = max last.stop range.stop := by
    rw [← lastStop, ← rangeStop, toNat_max]
  have below : last.start ≤ max lastEnd rangeEnd := by
    rw [UInt64.le_iff_toNat_le, whole]
    exact startBelow.trans (le_max_left _ _)
  have stopEq : last.start.toNat + (saturatingSub (max lastEnd rangeEnd) last.start).toNat =
      max last.stop range.stop := by
    rw [toNat_saturatingSub below, whole]
    have := startBelow.trans (le_max_left last.stop range.stop)
    omega
  refine ⟨stopEq, fun byte => ?_⟩
  have order := UInt64.le_iff_toNat_le.mp sorted
  show last.start.toNat ≤ byte ∧ byte < last.start.toNat + _ ↔ _
  rw [stopEq]
  simp only [Covers]
  omega

/-! ### What the loop preserves -/

/-- The invariant of the loop over sorted ranges of which `done` have been read. -/
structure Merged (done merged : List ByteRange) : Prop where
  fits : ∀ range ∈ merged, range.Fits
  apart : merged.Pairwise fun later earlier => earlier.stop < later.start.toNat
  covers : ∀ byte, (∃ range ∈ merged, range.Covers byte) ↔ ∃ range ∈ done, range.Covers byte
  /-- Merging moves no start. -/
  starts : ∀ range ∈ merged, ∃ origin ∈ done, origin.start = range.start

theorem Merged.step {done merged : List ByteRange} (holds : Merged done merged) {range : ByteRange}
    (fits : range.Fits) (sorted : ∀ earlier ∈ done, earlier.start ≤ range.start) :
    Merged (done ++ [range]) (mergeRange merged range) := by
  have covered : ∀ byte, (∃ other ∈ done ++ [range], other.Covers byte) ↔
      (∃ other ∈ merged, other.Covers byte) ∨ range.Covers byte := by
    intro byte
    rw [holds.covers]
    simp only [List.mem_append, List.mem_singleton, or_and_right, exists_or, exists_eq_left]
  have startsLater : ∀ other ∈ merged, ∃ origin ∈ done ++ [range], origin.start = other.start := by
    intro other member
    obtain ⟨origin, inDone, same⟩ := holds.starts other member
    exact ⟨origin, List.mem_append_left _ inDone, same⟩
  have rangeStarts : ∃ origin ∈ done ++ [range], origin.start = range.start :=
    ⟨range, List.mem_append_right _ (List.mem_singleton_self _), rfl⟩
  cases merged with
  | nil =>
    refine ⟨List.forall_mem_singleton.mpr fits, List.pairwise_singleton _ _, fun byte => ?_,
      List.forall_mem_singleton.mpr rangeStarts⟩
    rw [covered]
    simp only [mergeRange, List.mem_singleton, exists_eq_left, List.not_mem_nil, false_and,
      exists_false, false_or]
  | cons last before =>
    obtain ⟨lastFits, beforeFit⟩ := List.forall_mem_cons.mp holds.fits
    obtain ⟨lastApart, beforeApart⟩ := List.pairwise_cons.mp holds.apart
    obtain ⟨lastStarts, beforeStart⟩ := List.forall_mem_cons.mp startsLater
    have lastStop : (saturatingAdd last.start last.length).toNat = last.stop :=
      toNat_saturatingAdd lastFits
    rw [mergeRange]
    by_cases meets : range.start ≤ saturatingAdd last.start last.length
    · rw [if_pos meets]
      rw [UInt64.le_iff_toNat_le, lastStop] at meets
      obtain ⟨origin, inDone, sameStart⟩ := holds.starts last List.mem_cons_self
      obtain ⟨joined, isJoined, start, stop, joinedCovers⟩ :=
        join_spec lastFits fits (sameStart ▸ sorted origin inDone) meets
      rw [isJoined]
      refine ⟨List.forall_mem_cons.mpr ⟨?_, beforeFit⟩,
        List.pairwise_cons.mpr ⟨fun earlier member => ?_, beforeApart⟩, fun byte => ?_,
        List.forall_mem_cons.mpr ⟨start ▸ lastStarts, beforeStart⟩⟩
      · rw [Fits, stop]
        exact max_lt lastFits fits
      · rw [start]
        exact lastApart earlier member
      · rw [covered, List.exists_mem_cons_iff, List.exists_mem_cons_iff, joinedCovers]
        exact or_right_comm
    · rw [if_neg meets]
      rw [UInt64.le_iff_toNat_le, lastStop, Nat.not_le] at meets
      refine ⟨List.forall_mem_cons.mpr ⟨fits, holds.fits⟩,
        List.pairwise_cons.mpr ⟨List.forall_mem_cons.mpr ⟨meets, fun earlier member => ?_⟩,
          holds.apart⟩, fun byte => ?_, List.forall_mem_cons.mpr ⟨rangeStarts, startsLater⟩⟩
      · exact (lastApart earlier member).trans_le ((Nat.le_add_right _ _).trans meets.le)
      · rw [covered, List.exists_mem_cons_iff]
        exact or_comm

theorem merged_foldl {left : List ByteRange} : ∀ {done merged : List ByteRange},
    (∀ range ∈ left, range.Fits) →
    (done ++ left).Pairwise (fun first second => first.start ≤ second.start) →
    Merged done merged → Merged (done ++ left) (left.foldl mergeRange merged) := by
  induction left with
  | nil =>
    intro done merged _ _ holds
    rwa [List.append_nil]
  | cons range rest inductionHypothesis =>
    intro done merged fits sorted holds
    obtain ⟨rangeFits, restFit⟩ := List.forall_mem_cons.mp fits
    have earlier : ∀ other ∈ done, other.start ≤ range.start := fun other member =>
      (List.pairwise_append.mp sorted).2.2 other member range List.mem_cons_self
    rw [List.append_cons] at sorted ⊢
    exact inductionHypothesis restFit sorted (holds.step rangeFits earlier)

/-- The merged ranges are sorted by start with at least one byte between any two of them, and they
cover exactly the bytes of the ranges. -/
theorem mergeRanges_exact (ranges : List ByteRange) (fits : ∀ range ∈ ranges, range.Fits) :
    (mergeRanges ranges).Pairwise Before ∧
      ∀ byte, (∃ range ∈ mergeRanges ranges, range.Covers byte) ↔
        ∃ range ∈ ranges, range.Covers byte := by
  let order := fun first second : ByteRange => decide (first.start ≤ second.start)
  have permuted := List.mergeSort_perm ranges order
  have sorted : (ranges.mergeSort order).Pairwise fun first second =>
      first.start ≤ second.start := by
    have pairwise := @List.pairwise_mergeSort ByteRange order
      (fun first second third => by
        simp only [order, decide_eq_true_eq]
        exact UInt64.le_trans)
      (fun first second => by
        simp only [order, Bool.or_eq_true, decide_eq_true_eq]
        exact UInt64.le_total _ _) ranges
    exact pairwise.imp of_decide_eq_true
  have start : Merged [] [] :=
    ⟨List.forall_mem_nil _, List.Pairwise.nil, fun _ => Iff.rfl, List.forall_mem_nil _⟩
  have merged := merged_foldl (fun range member => fits range (permuted.mem_iff.mp member))
    sorted start
  rw [List.nil_append] at merged
  constructor
  · rw [mergeRanges, List.pairwise_reverse]
    exact merged.apart.imp before_iff.mpr
  · intro byte
    simp only [mergeRanges, List.mem_reverse]
    rw [merged.covers]
    exact exists_congr fun range => and_congr_left fun _ => permuted.mem_iff

theorem mergeRanges_exact_touching :
    let ranges : List ByteRange := [⟨8, 4⟩, ⟨0, 6⟩, ⟨2, 1⟩, ⟨6, 1⟩]
    (mergeRanges ranges).Pairwise Before ∧
      ∀ byte, (∃ range ∈ mergeRanges ranges, range.Covers byte) ↔
        ∃ range ∈ ranges, range.Covers byte :=
  mergeRanges_exact _ (by unfold Fits stop; decide)

end ByteRange

end AiSwitcher.Host
