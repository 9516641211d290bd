/-
This file develops tallies: tables of amounts by key, in the order in which their keys
first appeared, to which an amount is added under its key. The amounts are of any
commutative monoid. What a table has under a key and what it has in total are sums, so
neither depends on the order in which the amounts came.
-/

import Mathlib.Algebra.BigOperators.Group.List.Lemmas

namespace Tally

variable {Key Amount : Type} [DecidableEq Key] [AddCommMonoid Amount]

/-- `table[key] = (table[key] ?? 0) + amount` -/
def add (table : List (Key × Amount)) (key : Key) (amount : Amount) : List (Key × Amount) :=
  match table with
  | [] => [(key, amount)]
  | (other, held) :: rest =>
      if other = key then (other, held + amount) :: rest else (other, held) :: add rest key amount

/-- One amount after the other. -/
def addAll (table amounts : List (Key × Amount)) : List (Key × Amount) :=
  amounts.foldl (fun table row => add table row.1 row.2) table

/-- `table[key] ?? 0` -/
def get (table : List (Key × Amount)) (key : Key) : Amount :=
  ((table.find? fun row => row.1 = key).map Prod.snd).getD 0

def total (table : List (Key × Amount)) : Amount :=
  (table.map Prod.snd).sum

theorem addAll_nil (table : List (Key × Amount)) : addAll table [] = table := rfl

theorem addAll_cons (table rest : List (Key × Amount)) (row : Key × Amount) :
    addAll table (row :: rest) = addAll (add table row.1 row.2) rest := rfl

theorem addAll_append (table first second : List (Key × Amount)) :
    addAll table (first ++ second) = addAll (addAll table first) second :=
  List.foldl_append

/-! ### Keys -/

theorem mem_keys_add {table : List (Key × Amount)} {key other : Key} {amount : Amount} :
    other ∈ (add table key amount).map Prod.fst ↔ other ∈ table.map Prod.fst ∨ other = key := by
  induction table with
  | nil => simp [add]
  | cons row rest inductionHypothesis =>
    obtain ⟨first, held⟩ := row
    rw [add]
    by_cases same : first = key
    · rw [if_pos same, List.map_cons, List.map_cons, List.mem_cons, same]
      tauto
    · rw [if_neg same, List.map_cons, List.mem_cons, inductionHypothesis, List.map_cons,
        List.mem_cons, or_assoc]

theorem mem_keys_addAll {amounts : List (Key × Amount)} {key : Key} :
    ∀ {table : List (Key × Amount)}, key ∈ (addAll table amounts).map Prod.fst ↔
      key ∈ table.map Prod.fst ∨ key ∈ amounts.map Prod.fst := by
  induction amounts with
  | nil => simp [addAll_nil]
  | cons row rest inductionHypothesis =>
    intro table
    rw [addAll_cons, inductionHypothesis, mem_keys_add, List.map_cons, List.mem_cons, or_assoc]

theorem nodup_keys_add {table : List (Key × Amount)} {key : Key} {amount : Amount}
    (distinct : (table.map Prod.fst).Nodup) : ((add table key amount).map Prod.fst).Nodup := by
  induction table with
  | nil => exact List.nodup_singleton key
  | cons row rest inductionHypothesis =>
    obtain ⟨first, held⟩ := row
    obtain ⟨fresh, restDistinct⟩ := List.nodup_cons.mp distinct
    rw [add]
    by_cases same : first = key
    · rw [if_pos same]
      exact distinct
    · rw [if_neg same, List.map_cons, List.nodup_cons, mem_keys_add, not_or]
      exact ⟨⟨fresh, same⟩, inductionHypothesis restDistinct⟩

theorem nodup_keys_addAll {amounts : List (Key × Amount)} :
    ∀ {table : List (Key × Amount)}, (table.map Prod.fst).Nodup →
      ((addAll table amounts).map Prod.fst).Nodup := by
  induction amounts with
  | nil => exact fun distinct => distinct
  | cons row rest inductionHypothesis =>
    exact fun distinct => inductionHypothesis (nodup_keys_add distinct)

/-! ### Amounts -/

theorem get_of_not_mem {table : List (Key × Amount)} {key : Key}
    (absent : key ∉ table.map Prod.fst) : get table key = 0 := by
  have none : (table.find? fun row => row.1 = key) = none := by
    refine List.find?_eq_none.mpr fun row member same => ?_
    exact absent (List.mem_map.mpr ⟨row, member, of_decide_eq_true same⟩)
  rw [get, none]
  rfl

theorem get_cons (row : Key × Amount) (rest : List (Key × Amount)) (key : Key) :
    get (row :: rest) key = if row.1 = key then row.2 else get rest key := by
  rw [get, List.find?_cons]
  by_cases same : row.1 = key
  · rw [if_pos same, decide_eq_true same]
    rfl
  · rw [if_neg same, decide_eq_false same]
    rfl

theorem get_add (table : List (Key × Amount)) (key other : Key) (amount : Amount) :
    get (add table key amount) other = get table other + if key = other then amount else 0 := by
  induction table with
  | nil =>
    rw [add, get_cons]
    show _ = 0 + _
    rw [zero_add]
    rfl
  | cons row rest inductionHypothesis =>
    obtain ⟨first, held⟩ := row
    rw [add]
    by_cases same : first = key
    · subst same
      rw [if_pos rfl, get_cons, get_cons]
      by_cases isOther : first = other
      · rw [if_pos isOther, if_pos isOther, if_pos isOther]
      · rw [if_neg isOther, if_neg isOther, if_neg isOther, add_zero]
    · rw [if_neg same, get_cons, get_cons, inductionHypothesis]
      by_cases isOther : first = other
      · have different : key ≠ other := fun equal => same (isOther.trans equal.symm)
        rw [if_pos isOther, if_pos isOther, if_neg different, add_zero]
      · rw [if_neg isOther, if_neg isOther]

/-- What is under a key is the sum of what was added under it. -/
theorem get_addAll (amounts : List (Key × Amount)) (key : Key) :
    ∀ table : List (Key × Amount), get (addAll table amounts) key =
      get table key + ((amounts.filter fun row => row.1 = key).map Prod.snd).sum := by
  induction amounts with
  | nil => exact fun table => (add_zero _).symm
  | cons row rest inductionHypothesis =>
    intro table
    rw [addAll_cons, inductionHypothesis, get_add, List.filter_cons, add_assoc]
    by_cases same : row.1 = key
    · rw [if_pos same, if_pos (decide_eq_true same), List.map_cons, List.sum_cons]
    · rw [if_neg same, if_neg (by simpa using same), zero_add]

/-- Where the keys are distinct, what was added under a key is what the other table has there. -/
theorem get_addAll_of_nodup {amounts : List (Key × Amount)} (distinct : (amounts.map Prod.fst).Nodup)
    (table : List (Key × Amount)) (key : Key) :
    get (addAll table amounts) key = get table key + get amounts key := by
  rw [get_addAll]
  refine congrArg _ ?_
  induction amounts with
  | nil => rfl
  | cons row rest inductionHypothesis =>
    obtain ⟨fresh, restDistinct⟩ := List.nodup_cons.mp distinct
    rw [List.filter_cons, get_cons]
    by_cases same : row.1 = key
    · have absent : rest.filter (fun other => other.1 = key) = [] := by
        refine List.filter_eq_nil_iff.mpr fun other member isKey => fresh ?_
        exact List.mem_map.mpr ⟨other, member, (of_decide_eq_true isKey).trans same.symm⟩
      rw [if_pos (decide_eq_true same), if_pos same, absent]
      exact List.sum_singleton
    · rw [if_neg (by simpa using same), if_neg same, inductionHypothesis restDistinct]

omit [DecidableEq Key] in
theorem total_cons (row : Key × Amount) (rest : List (Key × Amount)) :
    total (row :: rest) = row.2 + total rest :=
  List.sum_cons

theorem total_add (table : List (Key × Amount)) (key : Key) (amount : Amount) :
    total (add table key amount) = total table + amount := by
  induction table with
  | nil => exact (total_cons _ _).trans (add_comm _ _)
  | cons row rest inductionHypothesis =>
    obtain ⟨first, held⟩ := row
    rw [add, total_cons]
    by_cases same : first = key
    · rw [if_pos same, total_cons, add_right_comm]
    · rw [if_neg same, total_cons, inductionHypothesis, add_assoc]

theorem total_addAll (amounts : List (Key × Amount)) :
    ∀ table : List (Key × Amount), total (addAll table amounts) = total table + total amounts := by
  induction amounts with
  | nil => exact fun table => (add_zero _).symm
  | cons row rest inductionHypothesis =>
    intro table
    rw [addAll_cons, inductionHypothesis, total_add, total_cons, add_assoc]

end Tally
