/-
This file develops records of a fixed length that are written and read field by field: a
field is a run of elements at a fixed place, and patching a record replaces the elements at a
place. A record reads back what was patched into it last, and a patch leaves every field that
does not touch it as it was.
-/

import Mathlib.Data.List.Basic

namespace Fields

variable {Element : Type}

def field (record : List Element) (start count : Nat) : List Element :=
  (record.drop start).take count

/-- Replace the elements from a place on. -/
def patch (record : List Element) (start : Nat) (elements : List Element) : List Element :=
  record.take start ++ elements ++ record.drop (start + elements.length)

variable {record elements : List Element} {start count : Nat}

theorem getElem?_field (index : Nat) :
    (field record start count)[index]? = if index < count then record[start + index]? else none := by
  rw [field, List.getElem?_take]
  split
  · rw [List.getElem?_drop]
  · rfl

theorem getElem?_patch (inside : start ≤ record.length) (index : Nat) :
    (patch record start elements)[index]? =
      if index < start then record[index]?
      else if index < start + elements.length then elements[index - start]?
      else record[index]? := by
  rw [patch, List.append_assoc]
  by_cases before : index < start
  · rw [if_pos before, List.getElem?_append_left (by simp; omega),
      List.getElem?_take_of_lt before]
  rw [if_neg before, List.getElem?_append_right (by simp; omega), List.length_take,
    Nat.min_eq_left inside]
  by_cases within : index < start + elements.length
  · rw [if_pos within, List.getElem?_append_left (by omega)]
  · rw [if_neg within, List.getElem?_append_right (by omega), List.getElem?_drop]
    congr 1
    omega

@[simp] theorem length_patch (fits : start + elements.length ≤ record.length) :
    (patch record start elements).length = record.length := by
  simp [patch]
  omega

/-- What was patched is read back, with what the record had behind it. -/
theorem field_patch_self (fits : start + elements.length ≤ record.length)
    (covers : elements.length ≤ count) :
    field (patch record start elements) start count =
      elements ++ field record (start + elements.length) (count - elements.length) := by
  refine List.ext_getElem? fun index => ?_
  rw [getElem?_field, getElem?_patch (by omega), List.getElem?_append, getElem?_field]
  grind

theorem field_patch_exact (fits : start + elements.length ≤ record.length)
    (fills : elements.length = count) :
    field (patch record start elements) start count = elements := by
  rw [field_patch_self fits (Nat.le_of_eq fills), fills, Nat.sub_self, field, List.take_zero, List.append_nil]

/-- A field that a patch does not touch. -/
theorem field_patch_of_disjoint {place : Nat} (fits : start + elements.length ≤ record.length)
    (disjoint : place + count ≤ start ∨ start + elements.length ≤ place) :
    field (patch record start elements) place count = field record place count := by
  refine List.ext_getElem? fun index => ?_
  rw [getElem?_field, getElem?_field]
  split
  · rw [getElem?_patch (by omega)]
    grind
  · rfl

theorem patch_patch {replaced : List Element} (fits : start + replaced.length ≤ record.length)
    (same : replaced.length = elements.length) :
    patch (patch record start replaced) start elements = patch record start elements := by
  refine List.ext_getElem? fun index => ?_
  rw [getElem?_patch (by rw [length_patch fits]; omega), getElem?_patch (by omega),
    getElem?_patch (by omega)]
  grind

/-- Patching in what is there changes nothing. -/
theorem patch_of_field (fits : start + elements.length ≤ record.length)
    (same : field record start elements.length = elements) :
    patch record start elements = record := by
  refine List.ext_getElem? fun index => ?_
  rw [getElem?_patch (by omega)]
  have inside := congrArg (fun found => found[index - start]?) same
  simp only [getElem?_field] at inside
  grind

theorem field_add (first second : Nat) :
    field record start (first + second) =
      field record start first ++ field record (start + first) second := by
  rw [field, field, field, ← List.drop_drop, List.take_add]

theorem field_replicate {value : Element} {size : Nat} (inside : start + count ≤ size) :
    field (.replicate size value) start count = .replicate count value := by
  rw [field, List.drop_replicate, List.take_replicate, Nat.min_eq_left (by omega)]

/-! ### Many patches -/

def patchAll (record : List Element) (patches : List (Nat × List Element)) : List Element :=
  patches.foldl (fun record patched => patch record patched.1 patched.2) record

/-- A patch touches no element from a place on. -/
def Clear (place count : Nat) (patched : Nat × List Element) : Prop :=
  place + count ≤ patched.1 ∨ patched.1 + patched.2.length ≤ place

variable {patches : List (Nat × List Element)}

theorem length_patchAll
    (fit : ∀ patched ∈ patches, patched.1 + patched.2.length ≤ record.length) :
    (patchAll record patches).length = record.length := by
  induction patches generalizing record with
  | nil => rfl
  | cons patched patches inductionHypothesis =>
    have length := length_patch (fit patched List.mem_cons_self)
    rw [patchAll, List.foldl_cons, ← patchAll, inductionHypothesis, length]
    exact fun other member => length ▸ fit other (List.mem_cons_of_mem _ member)

theorem field_patchAll_of_clear
    (fit : ∀ patched ∈ patches, patched.1 + patched.2.length ≤ record.length)
    (clear : ∀ patched ∈ patches, Clear start count patched) :
    field (patchAll record patches) start count = field record start count := by
  induction patches generalizing record with
  | nil => rfl
  | cons patched patches inductionHypothesis =>
    have fits := fit patched List.mem_cons_self
    have length := length_patch fits
    rw [patchAll, List.foldl_cons, ← patchAll, inductionHypothesis
        (fun other member => length ▸ fit other (List.mem_cons_of_mem _ member))
        (fun other member => clear other (List.mem_cons_of_mem _ member)),
      field_patch_of_disjoint fits (clear patched List.mem_cons_self)]

/-- Patches that do not touch each other are all read back. -/
theorem field_patchAll_of_mem {patched : Nat × List Element}
    (fit : ∀ patched ∈ patches, patched.1 + patched.2.length ≤ record.length)
    (apart : patches.Pairwise fun first second => Clear first.1 first.2.length second)
    (member : patched ∈ patches) :
    field (patchAll record patches) patched.1 patched.2.length = patched.2 := by
  induction patches generalizing record with
  | nil => cases member
  | cons head patches inductionHypothesis =>
    have length := length_patch (fit head List.mem_cons_self)
    have rest : ∀ other ∈ patches, other.1 + other.2.length ≤
        (patch record head.1 head.2).length :=
      fun other member => length ▸ fit other (List.mem_cons_of_mem _ member)
    obtain ⟨first, apart⟩ := List.pairwise_cons.1 apart
    rw [patchAll, List.foldl_cons, ← patchAll]
    rcases List.mem_cons.1 member with rfl | member
    · rw [field_patchAll_of_clear rest first, field_patch_exact (fit patched List.mem_cons_self) rfl]
    · exact inductionHypothesis rest apart member

end Fields
