/-
This file develops grouping: rows come with keys and are put into a table in the order in which the
keys first appeared, the first row of a key as it is and every later one joined with what is
there. What the table has under a key depends only on the rows of that key, in their order, and
where the joins commute not on the order either.
-/

import Mathlib.Data.List.Induction
import Mathlib.Data.List.Nodup

namespace Grouping

variable {Key Row Held : Type} [DecidableEq Key]

/-- `map.get(key)` -/
def get : List (Key × Held) → Key → Option Held
  | [], _ => none
  | (other, held) :: rest, key => if other = key then some held else get rest key

/-- `map.set(key, held)`: in its place, or at the end. -/
def set : List (Key × Held) → Key → Held → List (Key × Held)
  | [], key, held => [(key, held)]
  | (other, old) :: rest, key, held =>
      if other = key then (other, held) :: rest else (other, old) :: set rest key held

variable (start : Key → Row → Held) (join : Key → Held → Row → Held)

/-- One row arrives. -/
def put (table : List (Key × Held)) (item : Key × Row) : List (Key × Held) :=
  match get table item.1 with
  | none => set table item.1 (start item.1 item.2)
  | some held => set table item.1 (join item.1 held item.2)

/-- The rows of one key together. -/
def gather (key : Key) : List Row → Option Held
  | [] => none
  | row :: rest => some (rest.foldl (join key) (start key row))

/-- The rows of a key. -/
def rowsOf (items : List (Key × Row)) (key : Key) : List Row :=
  (items.filter fun item => item.1 = key).map Prod.snd

/-! ### One key -/

theorem get_set (table : List (Key × Held)) (key other : Key) (held : Held) :
    get (set table key held) other = if key = other then some held else get table other := by
  induction table with
  | nil => rfl
  | cons entry rest inductionHypothesis =>
    obtain ⟨first, old⟩ := entry
    rw [set]
    by_cases same : first = key
    · subst same
      rw [if_pos rfl, get, get]
      split <;> rfl
    · rw [if_neg same, get, get, inductionHypothesis]
      by_cases isOther : first = other
      · rw [if_pos isOther, if_pos isOther, if_neg fun equal => same (isOther.trans equal.symm)]
      · rw [if_neg isOther, if_neg isOther]

theorem mem_keys_set (table : List (Key × Held)) (key other : Key) (held : Held) :
    other ∈ (set table key held).map Prod.fst ↔ other ∈ table.map Prod.fst ∨ other = key := by
  induction table with
  | nil => simp [set]
  | cons entry rest inductionHypothesis =>
    obtain ⟨first, old⟩ := entry
    rw [set]
    by_cases same : first = key
    · rw [if_pos same, List.map_cons, List.map_cons, List.mem_cons, same]
      tauto
    · rw [if_neg same, List.map_cons, List.mem_cons, inductionHypothesis, List.map_cons,
        List.mem_cons, or_assoc]

theorem nodup_set {table : List (Key × Held)} (distinct : (table.map Prod.fst).Nodup) (key : Key)
    (held : Held) : ((set table key held).map Prod.fst).Nodup := by
  induction table with
  | nil => exact List.nodup_singleton key
  | cons entry rest inductionHypothesis =>
    obtain ⟨first, old⟩ := entry
    obtain ⟨fresh, restDistinct⟩ := List.nodup_cons.mp distinct
    rw [set]
    by_cases same : first = key
    · rw [if_pos same]
      exact distinct
    · rw [if_neg same, List.map_cons, List.nodup_cons, mem_keys_set, not_or]
      exact ⟨⟨fresh, same⟩, inductionHypothesis restDistinct⟩

theorem mem_iff_get {table : List (Key × Held)} (distinct : (table.map Prod.fst).Nodup) (key : Key)
    (held : Held) : (key, held) ∈ table ↔ get table key = some held := by
  induction table with
  | nil => exact iff_of_false List.not_mem_nil (Option.some_ne_none held).symm
  | cons entry rest inductionHypothesis =>
    obtain ⟨first, old⟩ := entry
    obtain ⟨fresh, restDistinct⟩ := List.nodup_cons.mp distinct
    rw [List.mem_cons, get, inductionHypothesis restDistinct]
    by_cases same : first = key
    · subst same
      have absent : get rest first ≠ some held := fun found =>
        fresh (List.mem_map.mpr ⟨_, (inductionHypothesis restDistinct).mpr found, rfl⟩)
      rw [if_pos rfl, or_iff_left absent, Prod.mk.injEq, and_iff_right rfl, Option.some.injEq]
      exact eq_comm
    · rw [if_neg same, or_iff_right fun equal => same (congrArg Prod.fst equal).symm]

theorem rowsOf_cons (item : Key × Row) (items : List (Key × Row)) (key : Key) :
    rowsOf (item :: items) key = (if item.1 = key then [item.2] else []) ++ rowsOf items key := by
  by_cases same : item.1 = key
  · rw [if_pos same, rowsOf, List.filter_cons_of_pos (by simpa using same)]
    rfl
  · rw [if_neg same, rowsOf, List.filter_cons_of_neg (by simpa using same)]
    rfl

/-- In a table a key has one row at most. -/
theorem rowsOf_table {table : List (Key × Held)} (distinct : (table.map Prod.fst).Nodup)
    (key : Key) : rowsOf table key = (get table key).toList := by
  induction table with
  | nil => rfl
  | cons entry rest inductionHypothesis =>
    obtain ⟨fresh, restDistinct⟩ := List.nodup_cons.mp distinct
    rw [rowsOf_cons, inductionHypothesis restDistinct, get]
    by_cases same : entry.1 = key
    · have absent : get rest key = none := by
        refine Option.eq_none_iff_forall_ne_some.mpr fun held found => fresh ?_
        exact List.mem_map.mpr ⟨_, (mem_iff_get restDistinct key held).mpr found, same.symm⟩
      rw [if_pos same, if_pos same, absent]
      rfl
    · rw [if_neg same, if_neg same]
      rfl

/-! ### All rows -/

theorem get_put (table : List (Key × Held)) (item : Key × Row) (key : Key) :
    get (put start join table item) key =
      if item.1 = key then some ((get table key).elim (start key item.2) (join key · item.2))
      else get table key := by
  rw [put]
  by_cases same : item.1 = key
  · subst same
    rw [if_pos rfl]
    cases get table item.1 <;> rw [get_set, if_pos rfl] <;> rfl
  · rw [if_neg same]
    cases get table item.1 <;> rw [get_set, if_neg same]

theorem nodup_foldl_put (items : List (Key × Row)) : ∀ table : List (Key × Held),
    (table.map Prod.fst).Nodup → ((items.foldl (put start join) table).map Prod.fst).Nodup := by
  induction items with
  | nil => exact fun _ distinct => distinct
  | cons item items inductionHypothesis =>
    intro table distinct
    refine inductionHypothesis _ ?_
    rw [put]
    split
    · exact nodup_set distinct _ _
    · exact nodup_set distinct _ _

omit [DecidableEq Key] in
theorem gather_concat (key : Key) (rows : List Row) (row : Row) :
    gather start join key (rows ++ [row]) =
      some ((gather start join key rows).elim (start key row) (join key · row)) := by
  cases rows with
  | nil => rfl
  | cons first rest =>
    rw [List.cons_append, gather, gather, List.foldl_append]
    rfl

theorem rowsOf_append (first second : List (Key × Row)) (key : Key) :
    rowsOf (first ++ second) key = rowsOf first key ++ rowsOf second key := by
  rw [rowsOf, List.filter_append, List.map_append]
  rfl

/-- Under a key is what its rows make together. -/
theorem get_foldl_put (items : List (Key × Row)) (key : Key) :
    get (items.foldl (put start join) []) key = gather start join key (rowsOf items key) := by
  induction items using List.reverseRecOn with
  | nil => rfl
  | append_singleton items item inductionHypothesis =>
    rw [List.foldl_append, List.foldl_cons, List.foldl_nil, get_put, inductionHypothesis,
      rowsOf_append]
    rw [rowsOf_cons]
    by_cases same : item.1 = key
    · rw [if_pos same, if_pos same]
      exact (gather_concat start join key _ item.2).symm
    · rw [if_neg same, if_neg same]
      exact congrArg _ (List.append_nil _).symm

end Grouping
