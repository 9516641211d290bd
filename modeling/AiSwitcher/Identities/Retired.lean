/-
This file embeds `src/identities/retired.ts` and the two calls of
`src/cli/identities/actions.ts` that use it: retiring and restoring an identity, and
when its newest retire or unretire event happened, which is what a registry merge
compares.
-/

import AiSwitcher.Identities.Store

namespace AiSwitcher

open JavaScript

/-! ### Events -/

/-- Epoch milliseconds of one timestamp member; a value that is not a date is not an event. -/
def eventMs (runtime : Runtime) (identity : Object) (key : String) : Option ℤ :=
  ((identity.get key).bind Json.asString?).bind runtime.dateParse

/-- Epoch milliseconds of the newest retire/unretire event, if any. -/
def lastRetirementEventMs (runtime : Runtime) (identity : Object) : Option ℤ :=
  match eventMs runtime identity "retiredAt", eventMs runtime identity "unretiredAt" with
  | some retired, some unretired => some (max retired unretired)
  | some retired, none => some retired
  | none, unretired => unretired

/-! ### Retiring and restoring -/

/-- True only when the identity is explicitly retired. -/
def isRetired (identity : Object) : Bool :=
  identity.get "retired" = some (.bool true)

/-- `now` is the text of `now.toISOString()`. -/
def retireIdentityFields (identity : Object) (now : String) : Object :=
  ((identity.set "retired" (.bool true)).set "retiredAt" (.str now)).delete "unretiredAt"

def unretireIdentityFields (identity : Object) (now : String) : Object :=
  ((identity.delete "retired").delete "retiredAt").set "unretiredAt" (.str now)

/-- Change the identity of a name or alias in place. -/
def changeIdentity (key : String) (change : Object → Except String Object) :
    List Object → Except String (List Object)
  | [] => .error ("No identity named \"" ++ key ++ "\"")
  | identity :: rest =>
    if (keysOf identity).contains key then do
      let changed ← change identity
      .ok (changed :: rest)
    else do
      let changed ← changeIdentity key change rest
      .ok (identity :: changed)

/-- Retiring a retired identity keeps its `retiredAt`. -/
def retireIdentity (file : IdentitiesFile) (name now : String) : Except String IdentitiesFile := do
  let identities ← changeIdentity name (fun identity =>
    .ok (if isRetired identity then identity else retireIdentityFields identity now)) file.identities
  .ok { file with identities }

def unretireIdentity (file : IdentitiesFile) (name now : String) :
    Except String IdentitiesFile := do
  let identities ← changeIdentity name (fun identity =>
    if isRetired identity then .ok (unretireIdentityFields identity now)
    else .error ("\"" ++ name ++ "\" is not retired")) file.identities
  .ok { file with identities }

/-- Exactly one identity has changed, one of the name or alias. -/
theorem changeIdentity_eq_ok {key : String} {change : Object → Except String Object} :
    ∀ {identities changed : List Object}, changeIdentity key change identities = .ok changed →
      ∃ before identity after result, identities = before ++ identity :: after ∧
        changed = before ++ result :: after ∧ key ∈ keysOf identity ∧
        change identity = .ok result := by
  intro identities
  induction identities with
  | nil => exact fun ended => nomatch ended
  | cons identity rest inductionHypothesis =>
    intro changed ended
    unfold changeIdentity at ended
    split_ifs at ended with named
    · obtain ⟨result, changes, same⟩ := (bind_eq_ok _ _ _).mp ended
      cases same
      exact ⟨[], identity, rest, result, rfl, rfl, List.contains_iff_mem.mp named, changes⟩
    · obtain ⟨others, changes, same⟩ := (bind_eq_ok _ _ _).mp ended
      cases same
      obtain ⟨before, found, after, result, split, rejoined, facts⟩ := inductionHypothesis changes
      exact ⟨identity :: before, found, after, result, congrArg (identity :: ·) split,
        congrArg (identity :: ·) rejoined, facts⟩

end AiSwitcher
