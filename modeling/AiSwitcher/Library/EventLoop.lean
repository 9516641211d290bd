/-
This file develops how programs share a world when only one of them runs at a time and goes
on until it has to wait: `Program.block` is that part of a program, up to the first action the
world does not answer at once. It also has the maps of such a world, which keep their entries
in the order in which the keys came.
-/

import AiSwitcher.Library.Interrupted

namespace Interrupted

/-! ### Running up to the next wait -/

variable {Action : Type → Type} {World Error First Result : Type}

/-- The answers a world gives at once; `none` for an action that is waited for. -/
abbrev Instant (Action : Type → Type) (World : Type) : Type 1 :=
  (Answer : Type) → Action Answer → World → Option (Answer × World)

namespace Program

/-- Run a program up to the next action that it has to wait for. -/
def block (instant : Instant Action World) :
    Program Action Error Result → World → Program Action Error Result × World
  | .done result, world => (.done result, world)
  | .fail error, world => (.fail error, world)
  | @Program.act _ _ _ Answer action next, world =>
      match instant Answer action world with
      | some (answer, after) => (next answer).block instant after
      | none => (.act action next, world)

section Block

variable (instant : Instant Action World) {Answer : Type} {action : Action Answer}
  {next : Answer → Program Action Error Result} {before after : World} {answer : Answer}

theorem block_answered (answered : instant Answer action before = some (answer, after)) :
    (act action next).block instant before = (next answer).block instant after := by
  simp only [block, answered]

theorem block_waits (waits : instant Answer action before = none) :
    (act action next).block instant before = (act action next, before) := by
  simp only [block, waits]

end Block

theorem bind_assoc {Second : Type} (program : Program Action Error First)
    (next : First → Program Action Error Second)
    (last : Second → Program Action Error Result) :
    (program >>= next) >>= last = program >>= fun first => next first >>= last := by
  induction program with
  | done first => rfl
  | fail error => rfl
  | act action rest inductionHypothesis =>
    exact congrArg (act action) (funext fun answer => inductionHypothesis answer)

end Program

/-! ### Maps -/

namespace OrderedMap

variable {Key Value : Type} [DecidableEq Key]

/-- `map.set(key, value)`: a key that is there keeps its place. -/
def set (entries : List (Key × Value)) (key : Key) (value : Value) : List (Key × Value) :=
  if entries.any (·.1 = key) then
    entries.map fun entry => if entry.1 = key then (key, value) else entry
  else entries ++ [(key, value)]

/-- `map.delete(key)` -/
def delete (entries : List (Key × Value)) (key : Key) : List (Key × Value) :=
  entries.filter (·.1 ≠ key)

variable {entries : List (Key × Value)} {key : Key} {value : Value} {entry : Key × Value}

theorem mem_set :
    entry ∈ set entries key value ↔ entry = (key, value) ∨ entry.1 ≠ key ∧ entry ∈ entries := by
  unfold set
  split
  · next present =>
    obtain ⟨old, member, same⟩ := List.any_eq_true.mp present
    have same : old.1 = key := of_decide_eq_true same
    rw [List.mem_map]
    constructor
    · rintro ⟨other, otherMember, rfl⟩
      split
      · exact .inl rfl
      · next different => exact .inr ⟨different, otherMember⟩
    · rintro (rfl | ⟨different, isEntry⟩)
      · exact ⟨old, member, if_pos same⟩
      · exact ⟨entry, isEntry, if_neg different⟩
  · next absent =>
    rw [List.mem_append, List.mem_singleton]
    constructor
    · rintro (isEntry | rfl)
      · refine .inr ⟨fun same => absent ?_, isEntry⟩
        exact List.any_eq_true.mpr ⟨entry, isEntry, decide_eq_true same⟩
      · exact .inl rfl
    · rintro (rfl | ⟨-, isEntry⟩)
      · exact .inr rfl
      · exact .inl isEntry

theorem mem_delete : entry ∈ delete entries key ↔ entry.1 ≠ key ∧ entry ∈ entries := by
  rw [delete, List.mem_filter, decide_eq_true_iff, and_comm]

end OrderedMap

end Interrupted
