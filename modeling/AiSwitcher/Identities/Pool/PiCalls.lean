/-
This file runs the calls of the Pi pool adapter, each under the pool's lock and with
nothing else writing. No call loses or leaks a provider's entry, where its inputs are
such that the pool's entries can be told apart.
-/

import AiSwitcher.Identities.Pool.PiSafety

namespace AiSwitcher.Pi

open JavaScript Interleaving Pool GrantFile

/-! ### Calls -/

inductive PiCall where
  | swap (grants : MemberPool) (target : Identity) (surroundings : Surroundings)
  | heal (grants : MemberPool) (surroundings : Surroundings)

inductive PiResult where
  | swapped (result : SwapResult)
  | healed (notes : List String)

def PiCall.grants : PiCall → MemberPool
  | .swap grants .. => grants
  | .heal grants _ => grants

/-- The member whose vault the pool's other entries are compared with. -/
def PiCall.comparedName : PiCall → String
  | .swap grants target _ => grants.pool.active.getD target.name
  | .heal grants _ => grants.pool.active.getD ""

/-- A call runs under the pool's lock. -/
def PiCall.program (runtime : TokenRuntime) : PiCall → PoolProgram PiResult
  | .swap grants target surroundings => withPoolLock grants.pool.configDir do
      let result ← swapCredentials (piSpec runtime) surroundings grants target
      return .swapped result
  | .heal grants surroundings => withPoolLock grants.pool.configDir do
      let notes ← GrantFile.heal (piSpec runtime) surroundings grants
      return .healed notes

/-- The files that a call finds are such that it can tell the pool's entries apart. -/
def PiCall.Considered (runtime : TokenRuntime) (files : PoolFiles) : PiCall → Prop
  | .swap grants target _ => SwapConsidered runtime grants files target
  | .heal grants _ => HealConsidered runtime grants files

theorem PiCall.against_program {runtime : TokenRuntime} {files : PoolFiles} (call : PiCall)
    (considered : call.Considered runtime files) :
    (call.program runtime).against alone
      (KeepsEntries runtime call.grants files call.comparedName) files [] := by
  have fits : AllFit runtime call.grants files [] := fun _ member => nomatch member
  cases call with
  | swap grants target surroundings =>
    exact Program.against_withLock _ (Program.against_bind
      (against_swapCredentials surroundings considered fits) (fun _ _ _ keeps => keeps.returning _)
      fun _ _ _ keeps => keeps.failing _) (fits.keepsEntries _ _)
  | heal grants surroundings =>
    exact Program.against_withLock _ (Program.against_bind
      (against_heal surroundings considered fits) (fun _ _ _ keeps => keeps.returning _)
      fun _ _ _ keeps => keeps.failing _) (fits.keepsEntries _ _)

/-- A call as the one program that writes; what the others are does not matter. -/
abbrev PiSystem := System PoolFile FileText PoolLock ℕ PiResult Unit

namespace LoggedOut

/-- The tokens `k1` and `k9` are those of two accounts. -/
def runtime : TokenRuntime where
  decodeJwtPayload token :=
    if token = "k1" ∨ token = "k9" then some [("user_id", .str token)] else none
  digest token := token
  dateParse _ := none
  textOf _ := ""

def work : Identity where
  name := "work"
  configDir := "/work"

def grants : MemberPool where
  pool := { name := "pi", configDir := "/pi", active := some "work" }
  members := [work]
  separate := by decide

def surroundings : Surroundings where
  stamp := "1"
  listing _ := []

def login (access refresh : String) (expires : ℤ) : Json :=
  .obj [("type", .str "oauth"), ("access", .str access), ("refresh", .str refresh),
    ("expires", .num (.finite expires))]

def vault : FileText :=
  .json (.obj [("kimi-coding", login "k1" "r1" 1)])

/-- The pool's file is `live`; nothing else acts. -/
def start (call : PiCall) (live : FileText) : PiSystem where
  main := call.program runtime
  others _ := .done ()
  state :=
    { files := fun
        | .credentials "/work" => some vault
        | .credentials "/pi" => some live
        | _ => none
      holders := fun _ => none
      trace := [] }

def swap : PiCall :=
  .swap grants work surroundings

/-- The swap, when no step of it fails. -/
def swapped (live : FileText) :
    Except String PiResult × State PoolFile FileText PoolLock (Option ℕ) :=
  (swap.program runtime).execute none (start swap live).state

theorem undisturbed (live : FileText) : (start swap live).Disciplined (onlyRewriting alone) :=
  fun _ => trivial

theorem run (live : FileText) :
    ∃ before after, (start swap live).Reaches before ∧ before.Completes after (swapped live).1 ∧
      after.state = (swapped live).2 := by
  obtain ⟨before, after, reaches, completes, ended⟩ := System.exists_completes
    (swap.program runtime) (start swap live).others (start swap live).state rfl
  exact ⟨before, after, reaches, completes, ended⟩

/-- The account's own entry is gone from the pool; another provider's login is there. -/
def withoutKimi : FileText :=
  .json (.obj [("anthropic", login "a1" "b1" 5)])

/-- The pool's file has the login of an account that no member has. -/
def stranger : FileText :=
  .json (.obj [("kimi-coding", login "k9" "r9" 9), ("anthropic", login "a1" "b1" 5)])

end LoggedOut

end AiSwitcher.Pi
