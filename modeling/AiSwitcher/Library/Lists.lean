/-
This file collects facts about lists. Merges by key rest on two: what is left after dropping
repetitions has none, and a symmetric relation holds pairwise along a list with distinct keys
exactly when it holds between any two members with different keys. Readers that leave parts out
rest on a third: concatenations of parts of which none is longer are the same exactly if the
parts are. Sums that leave elements out rest on a fourth: what was left out makes up for them.
Readers of paths rest on a fifth: a part of a split text stands between two separators.
-/

import Mathlib.Algebra.BigOperators.Group.List.Lemmas
import Mathlib.Data.List.Flatten
import Mathlib.Data.List.Nodup

namespace List

theorem nodup_eraseDups {Element : Type} [DecidableEq Element] :
    (elements : List Element) → elements.eraseDups.Nodup
  | [] => List.nodup_nil
  | element :: rest => by
      rw [List.eraseDups_cons, List.nodup_cons]
      exact ⟨by simp, nodup_eraseDups _⟩
termination_by elements => elements.length
decreasing_by exact Nat.lt_succ_of_le (List.length_filter_le _ _)

theorem pairwise_iff_of_nodup_map {Element Key : Type} (key : Element → Key)
    {related : Element → Element → Prop} (symmetric : ∀ left right, related left right →
      related right left) {elements : List Element} (distinct : (elements.map key).Nodup) :
    elements.Pairwise related ↔
      ∀ left ∈ elements, ∀ right ∈ elements, key left ≠ key right → related left right := by
  induction elements with
  | nil => simp
  | cons element rest inductionHypothesis =>
    rw [List.map_cons, List.nodup_cons] at distinct
    rw [List.pairwise_cons, inductionHypothesis distinct.2]
    have apart : ∀ other ∈ rest, key element ≠ key other := fun other member equal =>
      distinct.1 (equal ▸ List.mem_map_of_mem member)
    constructor
    · rintro ⟨first, others⟩ left leftMember right rightMember different
      rcases List.mem_cons.mp leftMember with rfl | leftRest
      · rcases List.mem_cons.mp rightMember with rfl | rightRest
        · exact absurd rfl different
        · exact first right rightRest
      · rcases List.mem_cons.mp rightMember with rfl | rightRest
        · exact symmetric _ _ (first left leftRest)
        · exact others left leftRest right rightRest different
    · intro all
      refine ⟨fun other member => ?_, fun left leftMember right rightMember => ?_⟩
      · exact all element List.mem_cons_self other (List.mem_cons_of_mem _ member)
          (apart other member)
      · exact all left (List.mem_cons_of_mem _ leftMember) right
          (List.mem_cons_of_mem _ rightMember)

/-- The first element with a key is the only one. -/
theorem find?_of_nodup_map {Element Key : Type} [DecidableEq Key] {key : Element → Key}
    {elements : List Element} (distinct : (elements.map key).Nodup) {element : Element}
    (member : element ∈ elements) :
    (elements.find? fun other => key other = key element) = some element := by
  cases found : elements.find? fun other => key other = key element with
  | none => exact absurd (decide_eq_true rfl) (List.find?_eq_none.mp found element member)
  | some other =>
    have same : key other = key element := by simpa using List.find?_some found
    exact congrArg some
      (List.inj_on_of_nodup_map distinct (List.mem_of_find?_eq_some found) member same)

/-- A sum, and what of it does not count. -/
theorem sum_map_ite_add_sum_filter {Element Amount : Type} [AddCommMonoid Amount]
    (counts : Element → Prop) [DecidablePred counts] (amount : Element → Amount)
    (elements : List Element) :
    (elements.map fun element => if counts element then amount element else 0).sum +
        ((elements.filter fun element => ¬ counts element).map amount).sum =
      (elements.map amount).sum := by
  induction elements with
  | nil => exact zero_add 0
  | cons element rest inductionHypothesis =>
    rw [List.map_cons, List.sum_cons, List.map_cons, List.sum_cons, ← inductionHypothesis,
      List.filter_cons]
    by_cases holds : counts element
    · rw [if_pos holds, if_neg (by simpa using holds), add_assoc]
    · rw [if_neg holds, if_pos (by simpa using holds), zero_add, List.map_cons, List.sum_cons,
        add_left_comm]


theorem length_flatMap_le {Item Part : Type} {shorter longer : Item → List Part} (items : List Item)
    (bounded : ∀ item ∈ items, (shorter item).length ≤ (longer item).length) :
    (items.flatMap shorter).length ≤ (items.flatMap longer).length := by
  induction items with
  | nil => exact Nat.le_refl _
  | cons item rest inductionHypothesis =>
    rw [forall_mem_cons] at bounded
    rw [flatMap_cons, flatMap_cons, length_append, length_append]
    exact Nat.add_le_add bounded.1 (inductionHypothesis bounded.2)

/-- Concatenations of parts of which none is longer are the same exactly if the parts are. -/
theorem flatMap_eq_iff_of_length_le {Item Part : Type} {shorter longer : Item → List Part}
    (items : List Item) (bounded : ∀ item ∈ items, (shorter item).length ≤ (longer item).length) :
    items.flatMap shorter = items.flatMap longer ↔
      ∀ item ∈ items, shorter item = longer item := by
  refine ⟨fun same => ?_, flatMap_congr⟩
  induction items with
  | nil => exact forall_mem_nil _
  | cons item rest inductionHypothesis =>
    rw [forall_mem_cons] at bounded ⊢
    rw [flatMap_cons, flatMap_cons] at same
    have lengths := congrArg length same
    have restShorter := length_flatMap_le rest bounded.2
    have here := bounded.1
    rw [length_append, length_append] at lengths
    obtain ⟨first, others⟩ := append_inj same (by omega)
    exact ⟨first, inductionHypothesis bounded.2 others⟩

/-- A part is followed by another one exactly if it stands between two separators, the first of
which may be the start. -/
theorem mem_dropLast_splitOn_iff {Symbol : Type} [DecidableEq Symbol] {separator : Symbol}
    {part text : List Symbol} (whole : separator ∉ part) :
    part ∈ (text.splitOn separator).dropLast ↔
      part ++ [separator] <+: text ∨ separator :: (part ++ [separator]) <:+: text := by
  constructor
  · intro member
    induction count : text.length using Nat.strong_induction_on generalizing text with
    | _ count inductionHypothesis =>
      by_cases isThere : separator ∈ text
      · obtain ⟨first, rest, rfl, outside⟩ := eq_append_cons_of_mem isThere
        rw [splitOn_append_cons_self_of_not_mem outside,
          dropLast_cons_of_ne_nil (splitOn_ne_nil _ _), mem_cons] at member
        rcases member with rfl | member
        · exact .inl ⟨rest, by rw [append_assoc, singleton_append]⟩
        · rw [length_append, length_cons] at count
          rcases inductionHypothesis rest.length (by omega) member rfl with start | inside
          · obtain ⟨behind, rfl⟩ := start
            exact .inr ⟨first, behind, by simp only [append_assoc, cons_append]⟩
          · exact .inr ((inside.trans (suffix_cons separator rest).isInfix).trans
              (suffix_append first _).isInfix)
      · rw [splitOn_eq_singleton isThere] at member
        cases member
  · have split (rest : List Symbol) :
        part ∈ ((part ++ separator :: rest).splitOn separator).dropLast := by
      rw [splitOn_append_cons_self_of_not_mem whole,
        dropLast_cons_of_ne_nil (splitOn_ne_nil _ _)]
      exact mem_cons_self
    rintro (⟨rest, rfl⟩ | ⟨before, rest, rfl⟩)
    · rw [append_assoc, singleton_append]
      exact split rest
    · have parts : before ++ separator :: (part ++ [separator]) ++ rest =
          before ++ separator :: (part ++ separator :: rest) := by
        simp only [append_assoc, cons_append, nil_append]
      rw [parts, splitOn_append_cons_self, dropLast_append_of_ne_nil (splitOn_ne_nil _ _)]
      exact mem_append_right _ (split rest)

end List
