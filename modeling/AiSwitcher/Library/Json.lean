/-
This file models JSON values as JavaScript holds them after `JSON.parse`: an
object is the list of its members in insertion order, and a number is a finite
value or one of the infinities, because `JSON.parse("1e999")` is `Infinity`.
The operations are the ones programs use on parsed objects: reading a member,
the spread `{...base, ...overlay}`, deleting a member, and what a value becomes
once `JSON.stringify` has written it and `JSON.parse` has read it back.
-/

import Mathlib.Data.Rat.Defs
import Mathlib.Algebra.Order.Ring.Unbundled.Rat
import Mathlib.Data.List.Basic

namespace JavaScript

/-- A JavaScript number that JSON can produce; `NaN` is not one of them. -/
inductive Number where
  | finite (value : ℚ)
  | infinite (negative : Bool)
  deriving DecidableEq

/-- The `<` of JavaScript numbers. -/
def Number.lt : Number → Number → Bool
  | .finite left, .finite right => left < right
  | .finite _, .infinite negative => !negative
  | .infinite negative, .finite _ => negative
  | .infinite left, .infinite right => left && !right

theorem Number.lt_irrefl (number : Number) : number.lt number = false := by
  cases number with
  | finite value => exact decide_eq_false (Rat.not_lt.mpr (le_refl value))
  | infinite negative => cases negative <;> rfl

theorem Number.lt_asymm {left right : Number} (less : left.lt right = true) :
    right.lt left = false := by
  cases left with
  | finite left =>
    cases right with
    | finite right => exact decide_eq_false (not_lt_of_gt (of_decide_eq_true less))
    | infinite negative => cases negative <;> first | rfl | cases less
  | infinite negative =>
    cases right with
    | finite right => cases negative <;> first | rfl | cases less
    | infinite other => cases negative <;> cases other <;> first | rfl | cases less

/-- The order is total: what is below something is below or above everything. -/
theorem Number.lt_of_not_lt_of_lt {first second third : Number}
    (notBelow : second.lt first = false) (below : second.lt third = true) :
    first.lt third = true := by
  cases first <;> cases second <;> cases third <;>
    simp_all only [Number.lt, decide_eq_true_eq, decide_eq_false_iff_not, Bool.not_eq_true',
      Bool.not_eq_false', Bool.and_eq_true, Bool.and_eq_false_iff]
  all_goals grind

/-- A parsed JSON value. -/
inductive Json where
  | null
  | bool (value : Bool)
  | num (value : Number)
  | str (value : String)
  | arr (items : List Json)
  | obj (fields : List (String × Json))

/-- Named values in insertion order: the members of an object, or the entries of a `Map` with
string keys. -/
abbrev Members (Value : Type) := List (String × Value)

/-- The members of a parsed object. -/
abbrev Object := Members Json

namespace Json

/-! ### Equality of values -/

mutual

/-- Structural equality, member order included: two values are equal exactly when
`JSON.stringify` writes the same text for them. -/
def equal : Json → Json → Bool
  | .null, .null => true
  | .bool left, .bool right => left == right
  | .num left, .num right => decide (left = right)
  | .str left, .str right => left == right
  | .arr left, .arr right => equalItems left right
  | .obj left, .obj right => equalFields left right
  | _, _ => false

def equalItems : List Json → List Json → Bool
  | [], [] => true
  | left :: lefts, right :: rights => equal left right && equalItems lefts rights
  | _, _ => false

def equalFields : List (String × Json) → List (String × Json) → Bool
  | [], [] => true
  | (leftKey, left) :: lefts, (rightKey, right) :: rights =>
      leftKey == rightKey && equal left right && equalFields lefts rights
  | _, _ => false

end

mutual

theorem equal_iff : ∀ left right : Json, equal left right = true ↔ left = right
  | .null, right => by cases right <;> simp [equal]
  | .bool _, right => by cases right <;> simp [equal]
  | .num _, right => by cases right <;> simp [equal]
  | .str _, right => by cases right <;> simp [equal]
  | .arr items, right => by cases right <;> simp [equal, equalItems_iff items]
  | .obj fields, right => by cases right <;> simp [equal, equalFields_iff fields]

theorem equalItems_iff : ∀ left right : List Json, equalItems left right = true ↔ left = right
  | [], right => by cases right <;> simp [equalItems]
  | item :: items, right => by
      cases right <;> simp [equalItems, equal_iff item, equalItems_iff items]

theorem equalFields_iff : ∀ left right : List (String × Json),
    equalFields left right = true ↔ left = right
  | [], right => by cases right <;> simp [equalFields]
  | (_, value) :: fields, right => by
      cases right <;> simp [equalFields, equal_iff value, equalFields_iff fields, Prod.ext_iff]

end

instance : DecidableEq Json := fun left right => decidable_of_iff _ (equal_iff left right)

/-! ### Reading a value -/

/-- The string a value is, when it is one. -/
def asString? : Json → Option String
  | .str value => some value
  | _ => none

theorem eq_str_of_asString? {value : Json} {text : String} (isText : value.asString? = some text) :
    value = .str text := by
  cases value with
  | str other => exact congrArg Json.str (Option.some.inj isText)
  | _ => cases isText

/-- The number a value is, when it is one. -/
def asNumber? : Json → Option Number
  | .num value => some value
  | _ => none

/-- `Array.isArray`, with the items. -/
def asArray? : Json → Option (List Json)
  | .arr items => some items
  | _ => none

/-- The members of a value that is an object and not an array. -/
def asObject? : Json → Option Object
  | .obj fields => some fields
  | _ => none

def isBool : Json → Bool
  | .bool _ => true
  | _ => false

/-- The strings of an array all of whose items are strings. -/
def asStrings? : Json → Option (List String)
  | .arr items => items.mapM asString?
  | _ => none

/-- `left === right` for two values that were parsed separately: objects and arrays are never the
same. -/
def strictEqual : Option Json → Option Json → Bool
  | none, none => true
  | some (.obj _), some _ => false
  | some (.arr _), some _ => false
  | some left, some right => left = right
  | _, _ => false

/-- What `{...value}` copies: an array or a string has its indices as keys. -/
def ownMembers : Json → List (String × Json)
  | .obj fields => fields
  | .arr items => items.zipIdx.map fun (item, index) => (toString index, item)
  | .str value => value.toList.zipIdx.map fun (character, index) =>
      (toString index, .str (.ofList [character]))
  | _ => []

/-! ### Writing a value -/

mutual

/-- What a reader gets back from the text `JSON.stringify` writes: every value is kept, but a
number that is not finite has been written as `null`. -/
def written : Json → Json
  | .num (.infinite _) => .null
  | .arr items => .arr (writtenItems items)
  | .obj fields => .obj (writtenFields fields)
  | other => other

def writtenItems : List Json → List Json
  | [] => []
  | item :: items => written item :: writtenItems items

def writtenFields : List (String × Json) → List (String × Json)
  | [] => []
  | (key, value) :: fields => (key, written value) :: writtenFields fields

end

theorem writtenItems_eq_map (items : List Json) : writtenItems items = items.map written := by
  induction items with
  | nil => rfl
  | cons item items inductionHypothesis => simp [writtenItems, inductionHypothesis]

theorem writtenFields_eq_map (fields : List (String × Json)) :
    writtenFields fields = fields.map fun field => (field.1, written field.2) := by
  induction fields with
  | nil => rfl
  | cons field fields inductionHypothesis => simp [writtenFields, inductionHypothesis]

@[simp] theorem written_str (value : String) : written (.str value) = .str value := rfl

@[simp] theorem written_bool (value : Bool) : written (.bool value) = .bool value := rfl

@[simp] theorem written_arr (items : List Json) :
    written (.arr items) = .arr (items.map written) := by
  rw [written, writtenItems_eq_map]

@[simp] theorem written_obj (fields : List (String × Json)) :
    written (.obj fields) = .obj (fields.map fun field => (field.1, written field.2)) := by
  rw [written, writtenFields_eq_map]

theorem asString?_written (value : Json) : (written value).asString? = value.asString? := by
  cases value with
  | arr items => rw [written_arr]; rfl
  | num number => cases number <;> rfl
  | obj fields => rw [written_obj]; rfl
  | _ => rfl

theorem asStrings?_written (value : Json) : (written value).asStrings? = value.asStrings? := by
  cases value with
  | arr items =>
    rw [written_arr]
    simp only [asStrings?, List.mapM_map]
    exact congrArg (fun read => List.mapM read items) (funext asString?_written)
  | num number => cases number <;> rfl
  | obj fields => rw [written_obj]; rfl
  | _ => rfl

theorem asObject?_written (value : Json) :
    (written value).asObject? =
      value.asObject?.map fun fields => fields.map fun field => (field.1, field.2.written) := by
  cases value with
  | arr items => rw [written_arr]; rfl
  | num number => cases number <;> rfl
  | obj fields => rw [written_obj]; rfl
  | _ => rfl

theorem asArray?_written (value : Json) :
    (written value).asArray? = value.asArray?.map fun items => items.map written := by
  cases value with
  | arr items => rw [written_arr]; rfl
  | num number => cases number <;> rfl
  | obj fields => rw [written_obj]; rfl
  | _ => rfl

theorem isBool_written (value : Json) : (written value).isBool = value.isBool := by
  cases value with
  | arr items => rw [written_arr]; rfl
  | num number => cases number <;> rfl
  | obj fields => rw [written_obj]; rfl
  | _ => rfl

theorem asString?_of_strictEqual {left right : Option Json}
    (equal : strictEqual left right = true) : left.bind asString? = right.bind asString? := by
  cases left with
  | none =>
    cases right with
    | none => rfl
    | some value => cases equal
  | some left =>
    cases right with
    | none => cases left <;> cases equal
    | some right =>
      cases left with
      | obj fields => cases equal
      | arr items => cases equal
      | _ => rw [of_decide_eq_true equal]

theorem asStrings?_strings (strings : List String) :
    (Json.arr (strings.map .str)).asStrings? = some strings := by
  induction strings with
  | nil => rfl
  | cons text strings inductionHypothesis =>
    simp only [asStrings?, List.map_cons, List.mapM_cons] at inductionHypothesis ⊢
    rw [inductionHypothesis]
    rfl

end Json

/-! ### Members -/

namespace Members

variable {Value : Type}

/-- `object[key]`, `none` for `undefined`. -/
def get (members : Members Value) (key : String) : Option Value :=
  List.lookup key members

def hasKey (members : Members Value) (key : String) : Bool :=
  members.any fun field => field.1 == key

/-- `Object.entries(object)` -/
def entries (members : Members Value) : Members Value :=
  (members.map Prod.fst).eraseDups.filterMap fun key => (members.get key).map fun value => (key, value)

/-- `{...base, ...overlay}`: the members of `base` keep their places and take the overlay's
values, the overlay's other members follow. -/
def spread (base overlay : Members Value) : Members Value :=
  base.map (fun field => (field.1, (overlay.get field.1).getD field.2)) ++
    overlay.filter fun field => !base.hasKey field.1

/-- `object[key] = value` -/
def set (members : Members Value) (key : String) (value : Value) : Members Value :=
  members.spread [(key, value)]

/-- `delete object[key]` -/
def delete (members : Members Value) (key : String) : Members Value :=
  members.filter fun field => field.1 != key

/-- `object[key] = value` where the value may be `undefined`, which `JSON.stringify` and every
reader that tests for `undefined` take for an absent member. -/
def assign (members : Members Value) (key : String) : Option Value → Members Value
  | some value => members.set key value
  | none => members.delete key

theorem get_cons (field : String × Value) (members : Members Value) (key : String) :
    get (field :: members) key = if field.1 = key then some field.2 else members.get key := by
  obtain ⟨name, value⟩ := field
  by_cases same : name = key
  · simp [get, same]
  · have different : (key == name) = false := by simpa using fun equal => same equal.symm
    simp [get, List.lookup_cons, same, different]

theorem get_append (first second : Members Value) (key : String) :
    get (first ++ second) key = (first.get key).or (second.get key) := by
  induction first with
  | nil => simp [get]
  | cons field first inductionHypothesis =>
    rw [List.cons_append, get_cons, get_cons, inductionHypothesis]
    split <;> simp

theorem get_map_values {Changed : Type} (members : Members Value)
    (change : String → Value → Changed) (key : String) :
    get (members.map fun field => (field.1, change field.1 field.2)) key =
      (members.get key).map (change key) := by
  induction members with
  | nil => rfl
  | cons field members inductionHypothesis =>
    rw [List.map_cons, get_cons, get_cons, inductionHypothesis]
    by_cases same : field.1 = key
    · rw [if_pos same, if_pos same, same, Option.map_some]
    · rw [if_neg same, if_neg same]

theorem get_filter_keys (members : Members Value) (keep : String → Bool) (key : String) :
    get (members.filter fun field => keep field.1) key =
      if keep key then members.get key else none := by
  induction members with
  | nil => simp [get]
  | cons field members inductionHypothesis =>
    rw [List.filter_cons, get_cons]
    by_cases same : field.1 = key
    · subst same
      by_cases kept : keep field.1 = true
      · simp [kept, get_cons]
      · simp [kept, inductionHypothesis]
    · by_cases kept : keep field.1 = true
      · simp [kept, get_cons, same, inductionHypothesis]
      · simp [kept, same, inductionHypothesis]

theorem mem_entries {members : Members Value} {key : String} {value : Value} :
    (key, value) ∈ members.entries ↔ members.get key = some value := by
  rw [entries, List.mem_filterMap]
  constructor
  · rintro ⟨other, -, found⟩
    obtain ⟨read, has, same⟩ := Option.map_eq_some_iff.mp found
    cases same
    exact has
  · intro has
    refine ⟨key, ?_, by rw [has]; rfl⟩
    rw [List.mem_eraseDups]
    induction members with
    | nil => cases has
    | cons field members inductionHypothesis =>
      rw [get_cons] at has
      rw [List.map_cons, List.mem_cons]
      by_cases same : field.1 = key
      · exact Or.inl same.symm
      · rw [if_neg same] at has
        exact Or.inr (inductionHypothesis has)

theorem isSome_get (members : Members Value) (key : String) :
    (members.get key).isSome = members.hasKey key := by
  induction members with
  | nil => rfl
  | cons field members inductionHypothesis =>
    rw [get_cons]
    by_cases same : field.1 = key
    · simp [same, hasKey]
    · rw [if_neg same, inductionHypothesis]
      simp [hasKey, same]

theorem hasKey_iff (members : Members Value) (key : String) :
    members.hasKey key = true ↔ key ∈ members.map Prod.fst := by
  simp only [hasKey, List.any_eq_true, beq_iff_eq, List.mem_map]

/-- The overlay decides every member it has, the base the others. -/
@[simp] theorem get_spread (base overlay : Members Value) (key : String) :
    (base.spread overlay).get key = (overlay.get key).or (base.get key) := by
  rw [spread, get_append, get_map_values base (fun name value => (overlay.get name).getD value) key,
    get_filter_keys overlay (fun name => !base.hasKey name) key, ← isSome_get]
  cases base.get key <;> cases overlay.get key <;> simp

@[simp] theorem get_set (members : Members Value) (assigned : String) (value : Value)
    (key : String) :
    (members.set assigned value).get key =
      if key = assigned then some value else members.get key := by
  rw [set, get_spread, get_cons]
  by_cases same : key = assigned
  · simp [same]
  · have different : assigned ≠ key := fun equal => same equal.symm
    simp [same, different, get]

@[simp] theorem get_delete (members : Members Value) (removed key : String) :
    (members.delete removed).get key = if key = removed then none else members.get key := by
  rw [delete, get_filter_keys members (fun name => name != removed) key]
  by_cases same : key = removed <;> simp [same]

@[simp] theorem get_assign (members : Members Value) (assigned : String) (value : Option Value)
    (key : String) :
    (members.assign assigned value).get key =
      if key = assigned then value else members.get key := by
  cases value with
  | none => rw [assign, get_delete]
  | some value => rw [assign, get_set]

/-- Setting a key that is not there appends it. -/
theorem set_of_not_hasKey (members : Members Value) (key : String) (value : Value)
    (absent : members.hasKey key = false) : members.set key value = members ++ [(key, value)] := by
  have kept : ∀ field ∈ members, (field.1, (get [(key, value)] field.1).getD field.2) = field := by
    intro field member
    have different : key ≠ field.1 := by
      intro equal
      have present : members.hasKey key = true :=
        List.any_eq_true.mpr ⟨field, member, by simp [equal]⟩
      rw [absent] at present
      cases present
    rw [get_cons, if_neg different]
    rfl
  rw [set, spread, List.map_congr_left kept, List.map_id']
  simp [absent]

/-- A member after an assignment is the assigned one or was there before. -/
theorem mem_set {members : Members Value} {key : String} {value : Value}
    {field : String × Value} (member : field ∈ members.set key value) :
    field = (key, value) ∨ field ∈ members := by
  obtain changed | added := List.mem_append.mp member
  · obtain ⟨base, inBase, rfl⟩ := List.mem_map.mp changed
    rw [get_cons]
    split
    next same => exact .inl (by rw [← same]; rfl)
    next => exact .inr inBase
  · exact .inl (List.mem_singleton.mp (List.mem_of_mem_filter added))

theorem mem_of_get {members : Members Value} {key : String} {value : Value}
    (isThere : members.get key = some value) : (key, value) ∈ members := by
  induction members with
  | nil => cases isThere
  | cons field rest inductionHypothesis =>
    rw [get_cons] at isThere
    split at isThere
    next same =>
      cases isThere
      exact same ▸ List.mem_cons_self
    next => exact List.mem_cons_of_mem _ (inductionHypothesis isThere)

/-- A member of a spread is one of the overlay or of the base. -/
theorem mem_spread {base overlay : Members Value} {field : String × Value}
    (member : field ∈ base.spread overlay) : field ∈ overlay ∨ field ∈ base := by
  obtain changed | added := List.mem_append.mp member
  · obtain ⟨found, inBase, rfl⟩ := List.mem_map.mp changed
    cases isOverlaid : overlay.get found.1 with
    | none => exact .inr inBase
    | some value => exact .inl (mem_of_get isOverlaid)
  · exact .inl (List.mem_of_mem_filter added)

@[simp] theorem hasKey_spread (base overlay : Members Value) (key : String) :
    (base.spread overlay).hasKey key = (overlay.hasKey key || base.hasKey key) := by
  rw [← isSome_get, ← isSome_get, ← isSome_get, get_spread, Option.isSome_or]

@[simp] theorem hasKey_entries (members : Members Value) (key : String) :
    members.entries.hasKey key = members.hasKey key := by
  rw [Bool.eq_iff_iff, hasKey_iff, ← isSome_get members, Option.isSome_iff_exists, List.mem_map]
  constructor
  · rintro ⟨⟨_, value⟩, member, rfl⟩
    exact ⟨value, mem_entries.mp member⟩
  · rintro ⟨value, isThere⟩
    exact ⟨(key, value), mem_entries.mpr isThere, rfl⟩

end Members

/-- The members of an object that was written and read again. -/
abbrev writtenMembers (object : Object) : Object :=
  object.map fun field => (field.1, field.2.written)

/-- A member of a written object is the member, written. -/
theorem Object.get_written (object : Object) (key : String) :
    Members.get (object.map fun field => (field.1, field.2.written)) key =
      (object.get key).map Json.written :=
  Members.get_map_values object (fun _ value => value.written) key

end JavaScript
