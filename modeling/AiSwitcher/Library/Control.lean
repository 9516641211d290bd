/-
This file has the control flow the verified programs share: validators that raise a
message unless a condition holds, and functions that return early from one guard
after another.
-/

import Mathlib.Logic.Basic

namespace JavaScript

/-! ### Validators -/

/-- `if (!condition) throw new Error(message)`. -/
def ensure (condition : Bool) (message : String) : Except String Unit :=
  if condition then .ok () else .error message

@[simp] theorem ensure_eq_ok (condition : Bool) (message : String) (result : Unit) :
    ensure condition message = .ok result ↔ condition = true := by
  cases condition <;> simp [ensure]

/-- A computation that goes on after another one succeeds exactly when both do. -/
theorem bind_eq_ok {Error First Second : Type} (first : Except Error First)
    (next : First → Except Error Second) (result : Second) :
    (first >>= next) = .ok result ↔ ∃ value, first = .ok value ∧ next value = .ok result := by
  cases first with
  | error message => simp [bind, Except.bind]
  | ok value => simp [bind, Except.bind]

theorem map_eq_ok {Error First Second : Type} (function : First → Second)
    (first : Except Error First) (result : Second) :
    first.map function = .ok result ↔ ∃ value, first = .ok value ∧ function value = result := by
  cases first with
  | error message => simp [Except.map]
  | ok value => simp [Except.map]

/-- `bind_eq_ok` for a step that only checks. -/
theorem check_bind_eq_ok {Error Result : Type} (first : Except Error Unit)
    (next : Unit → Except Error Result) (result : Result) :
    (first >>= next) = .ok result ↔ first = .ok () ∧ next () = .ok result := by
  rw [bind_eq_ok]
  constructor
  · rintro ⟨⟨⟩, passed, goesOn⟩
    exact ⟨passed, goesOn⟩
  · rintro ⟨passed, goesOn⟩
    exact ⟨(), passed, goesOn⟩

/-- Checking every element of a list. -/
theorem forM_eq_ok {Error Element : Type} (check : Element → Except Error Unit)
    (elements : List Element) :
    elements.forM check = .ok () ↔ ∀ element ∈ elements, check element = .ok () := by
  induction elements with
  | nil => exact ⟨fun _ _ member => (nomatch member), fun _ => rfl⟩
  | cons element rest inductionHypothesis =>
    show (check element >>= fun _ => rest.forM check) = .ok () ↔ _
    rw [check_bind_eq_ok, inductionHypothesis, List.forall_mem_cons]

theorem ensure_bind_eq_ok {Result : Type} (condition : Bool) (message : String)
    (next : Unit → Except String Result) (result : Result) :
    (ensure condition message >>= next) = .ok result ↔
      condition = true ∧ next () = .ok result := by
  rw [check_bind_eq_ok, ensure_eq_ok]

theorem ok_bind {Error First Second : Type} (value : First)
    (next : First → Except Error Second) : (Except.ok value >>= next) = next value := rfl

theorem ensure_bind_of_true {Result : Type} {condition : Bool} (holds : condition = true)
    (message : String) (next : Unit → Except String Result) :
    (ensure condition message >>= next) = next () := by
  rw [holds]
  rfl

theorem ensure_bind_of_false {Result : Type} {condition : Bool} (fails : condition = false)
    (message : String) (next : Unit → Except String Result) :
    (ensure condition message >>= next) = .error message := by
  rw [fails]
  rfl

/-! ### Early returns -/

/-- A function that did not return what a guard returns went past the guard. -/
theorem past_guard {Result : Type} {guard : Prop} [Decidable guard] {early late result : Result}
    (returned : (if guard then early else late) = result) (different : early ≠ result) :
    ¬ guard ∧ late = result := by
  by_cases holds : guard
  · rw [if_pos holds] at returned
    exact absurd returned different
  · rw [if_neg holds] at returned
    exact ⟨holds, returned⟩

end JavaScript
