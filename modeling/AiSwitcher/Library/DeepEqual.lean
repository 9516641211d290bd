/-
This file models `isDeepStrictEqual` on JSON values: objects are equal whatever the order
of their members. Equality is decided on canonical values, in which the members of every
object stand in the order of their keys, and two objects are equal exactly when every key
reads equal values.

A value that was written and read again is known up to that equality, and numbers that
are not finite have become `null` in it; `asWritten` is what is left of a value then.
-/

import AiSwitcher.Library.Json
import AiSwitcher.Library.Lists
import Mathlib.Data.List.Sort
import Mathlib.Data.String.Basic

namespace JavaScript

/-! ### Members in the order of their keys -/

namespace Members

variable {Value : Type}

/-- The keys in their order, each once. -/
def sortedKeys (members : Members Value) : List String :=
  (members.map Prod.fst).eraseDups.insertionSort (· ≤ ·)

def sorted (members : Members Value) : Members Value :=
  members.sortedKeys.filterMap fun key => (members.get key).map fun value => (key, value)

theorem mem_keys_iff (members : Members Value) (key : String) :
    key ∈ members.map Prod.fst ↔ (members.get key).isSome = true := by
  rw [isSome_get, hasKey, List.any_eq_true, List.mem_map]
  simp only [beq_iff_eq]

theorem mem_sortedKeys (members : Members Value) (key : String) :
    key ∈ members.sortedKeys ↔ (members.get key).isSome = true := by
  rw [sortedKeys, List.mem_insertionSort, List.mem_eraseDups, mem_keys_iff]

theorem sortedKeys_congr {Other : Type} {first : Members Value} {second : Members Other}
    (same : ∀ key, (first.get key).isSome = (second.get key).isSome) :
    first.sortedKeys = second.sortedKeys := by
  have perm : (first.map Prod.fst).eraseDups.Perm (second.map Prod.fst).eraseDups := by
    refine (List.perm_ext_iff_of_nodup (List.nodup_eraseDups _) (List.nodup_eraseDups _)).mpr ?_
    intro key
    rw [List.mem_eraseDups, List.mem_eraseDups, mem_keys_iff, mem_keys_iff, same]
  refine List.Perm.eq_of_pairwise' (List.pairwise_insertionSort (· ≤ ·) _)
    (List.pairwise_insertionSort (· ≤ ·) _) ?_
  exact (List.perm_insertionSort _ _).trans (perm.trans (List.perm_insertionSort _ _).symm)

theorem sorted_congr {first second : Members Value}
    (same : ∀ key, first.get key = second.get key) : first.sorted = second.sorted := by
  have keys : first.sortedKeys = second.sortedKeys :=
    sortedKeys_congr fun key => congrArg Option.isSome (same key)
  unfold sorted
  rw [keys]
  simp only [same]

theorem get_filterMap_keys (members : Members Value) (keys : List String) (key : String) :
    get (keys.filterMap fun name => (members.get name).map fun value => (name, value)) key =
      if key ∈ keys then members.get key else none := by
  induction keys with
  | nil => rfl
  | cons name keys inductionHypothesis =>
    rw [List.filterMap_cons]
    cases found : members.get name with
    | none =>
      rw [Option.map_none]
      dsimp only
      rw [inductionHypothesis]
      by_cases same : key = name
      · rw [same, found, ite_self, ite_self]
      · simp [same]
    | some value =>
      rw [Option.map_some]
      dsimp only
      rw [get_cons, inductionHypothesis]
      by_cases same : name = key
      · rw [if_pos same, if_pos (same ▸ List.mem_cons_self), ← same, found]
      · simp [same, Ne.symm same]

@[simp] theorem get_sorted (members : Members Value) (key : String) :
    members.sorted.get key = members.get key := by
  rw [sorted, get_filterMap_keys]
  by_cases present : (members.get key).isSome = true
  · rw [if_pos ((mem_sortedKeys members key).mpr present)]
  · rw [if_neg (mt (mem_sortedKeys members key).mp present)]
    exact (Option.not_isSome_iff_eq_none.mp present).symm

@[simp] theorem get_entries (members : Members Value) (key : String) :
    members.entries.get key = members.get key := by
  rw [entries, get_filterMap_keys]
  by_cases present : (members.get key).isSome = true
  · rw [if_pos (List.mem_eraseDups.mpr ((mem_keys_iff members key).mpr present))]
  · rw [if_neg fun member =>
      present ((mem_keys_iff members key).mp (List.mem_eraseDups.mp member))]
    exact (Option.not_isSome_iff_eq_none.mp present).symm

/-- Sorting looks at the keys only. -/
theorem sorted_map_values {Changed : Type} (members : Members Value) (change : Value → Changed) :
    sorted (members.map fun field => (field.1, change field.2)) =
      members.sorted.map fun field => (field.1, change field.2) := by
  have reads : ∀ key, get (members.map fun field => (field.1, change field.2)) key =
      (members.get key).map change := get_map_values members fun _ => change
  have keys : sortedKeys (members.map fun field => (field.1, change field.2)) =
      members.sortedKeys := sortedKeys_congr fun key => by rw [reads, Option.isSome_map]
  unfold sorted
  rw [keys, List.map_filterMap]
  congr 1
  funext key
  rw [reads, Option.map_map, Option.map_map]
  rfl

end Members

/-! ### Canonical values -/

namespace Json

mutual

/-- The value with the members of each object in the order of their keys. -/
def canonical : Json → Json
  | .arr items => .arr (canonicalItems items)
  | .obj fields => .obj (Members.sorted (canonicalFields fields))
  | other => other

def canonicalItems : List Json → List Json
  | [] => []
  | item :: items => canonical item :: canonicalItems items

def canonicalFields : List (String × Json) → List (String × Json)
  | [] => []
  | (key, value) :: fields => (key, canonical value) :: canonicalFields fields

end

theorem canonicalItems_eq_map (items : List Json) :
    canonicalItems items = items.map canonical := by
  induction items with
  | nil => rfl
  | cons item items inductionHypothesis => simp [canonicalItems, inductionHypothesis]

theorem canonicalFields_eq_map (fields : List (String × Json)) :
    canonicalFields fields = fields.map fun field => (field.1, canonical field.2) := by
  induction fields with
  | nil => rfl
  | cons field fields inductionHypothesis => simp [canonicalFields, inductionHypothesis]

theorem canonical_obj (fields : Object) :
    (Json.obj fields).canonical =
      .obj (Members.sorted (fields.map fun field => (field.1, field.2.canonical))) := by
  rw [canonical, canonicalFields_eq_map]

/-- Two objects are equal when every key reads equal values. -/
theorem canonical_obj_eq_iff {first second : Object} :
    (Json.obj first).canonical = (Json.obj second).canonical ↔
      ∀ key, (first.get key).map canonical = (second.get key).map canonical := by
  have reads : ∀ (fields : Object) (key : String),
      Members.get (fields.map fun field => (field.1, field.2.canonical)) key =
        (fields.get key).map canonical := fun fields =>
    Members.get_map_values fields fun _ => canonical
  rw [canonical_obj, canonical_obj, Json.obj.injEq]
  constructor
  · intro same key
    rw [← reads, ← reads, ← Members.get_sorted, ← Members.get_sorted (second.map _), same]
  · intro same
    refine Members.sorted_congr fun key => ?_
    rw [reads, reads, same]

/-- Only an object is canonically an object. -/
theorem eq_obj_of_canonical_eq {value : Json} {fields : Object}
    (same : value.canonical = .obj fields) : ∃ own, value = .obj own := by
  cases value with
  | obj own => exact ⟨own, rfl⟩
  | _ => cases same

/-! ### Values that were written -/

mutual

theorem canonical_written : ∀ value : Json, value.written.canonical = value.canonical.written
  | .null => rfl
  | .bool _ => rfl
  | .num number => by cases number <;> rfl
  | .str _ => rfl
  | .arr items => by
      rw [written, canonical, canonical, written, canonical_writtenItems]
  | .obj fields => by
      rw [written, canonical, canonical, written, canonical_writtenFields, writtenFields_eq_map,
        writtenFields_eq_map]
      exact congrArg Json.obj (Members.sorted_map_values _ written)

theorem canonical_writtenItems : ∀ items : List Json,
    canonicalItems (writtenItems items) = writtenItems (canonicalItems items)
  | [] => rfl
  | item :: items => by
      rw [writtenItems, canonicalItems, canonicalItems, writtenItems, canonical_written item,
        canonical_writtenItems items]

theorem canonical_writtenFields : ∀ fields : List (String × Json),
    canonicalFields (writtenFields fields) = writtenFields (canonicalFields fields)
  | [] => rfl
  | (key, value) :: fields => by
      rw [writtenFields, canonicalFields, canonicalFields, writtenFields, canonical_written value,
        canonical_writtenFields fields]

end

mutual

theorem written_written : ∀ value : Json, value.written.written = value.written
  | .null => rfl
  | .bool _ => rfl
  | .num number => by cases number <;> rfl
  | .str _ => rfl
  | .arr items => by rw [written, written, written_writtenItems]
  | .obj fields => by rw [written, written, written_writtenFields]

theorem written_writtenItems : ∀ items : List Json,
    writtenItems (writtenItems items) = writtenItems items
  | [] => rfl
  | item :: items => by
      rw [writtenItems, writtenItems, written_written item, written_writtenItems items]

theorem written_writtenFields : ∀ fields : List (String × Json),
    writtenFields (writtenFields fields) = writtenFields fields
  | [] => rfl
  | (key, value) :: fields => by
      rw [writtenFields, writtenFields, written_written value, written_writtenFields fields]

end

/-- What is left of a value once it was written, the order of members aside. -/
def asWritten (value : Json) : Json :=
  value.written.canonical

theorem asWritten_of_canonical_eq {first second : Json}
    (same : first.canonical = second.canonical) : first.asWritten = second.asWritten := by
  rw [asWritten, asWritten, canonical_written, canonical_written, same]

theorem asWritten_written (value : Json) : value.written.asWritten = value.asWritten := by
  rw [asWritten, written_written, asWritten]

theorem asWritten_obj_eq_iff {first second : Object} :
    (Json.obj first).asWritten = (Json.obj second).asWritten ↔
      ∀ key, (first.get key).map asWritten = (second.get key).map asWritten := by
  rw [asWritten, asWritten, written_obj, written_obj, canonical_obj_eq_iff]
  simp only [Object.get_written, Option.map_map]
  rfl

/-- What equals an object once written is an object. -/
theorem eq_obj_of_asWritten_eq {value : Json} {fields : Object}
    (same : value.asWritten = (Json.obj fields).asWritten) : ∃ own, value = .obj own := by
  cases value with
  | obj own => exact ⟨own, rfl⟩
  | num number => cases number <;> cases same
  | _ => cases same

end Json

/-- `isDeepStrictEqual`, where `none` is `undefined`. -/
def isDeepStrictEqual (left right : Option Json) : Bool :=
  left.map Json.canonical = right.map Json.canonical

end JavaScript
