/-
This file models which member a request is sent to: the identity of its application, or the
member of the pool with the lowest use below the reserve. It also models the members that are
held back after a failure, and the wait for a short hold to end.
-/

import Mathlib.Data.List.Sort
import AiSwitcher.Gateway.Proxy.Requests

namespace AiSwitcher.Gateway.Proxy

open JavaScript Interrupted

variable {Native : Type} (runtime : ProxyRuntime Native) (app : App)

def DEFAULT_RESERVE_PERCENT : ℚ := 80

def App.reserve (app : App) : ℚ := app.settings.reservePercent.getD DEFAULT_RESERVE_PERCENT

/-! ### The pick -/

/-- The worst window percent; `none` when the reading carries no number. -/
def utilisationOf (usage : Option PoolUsage) : Option ℚ :=
  match usage with
  | none => none
  | some usage =>
      match usage.maxUtilization.toList ++ usage.windows.filterMap UsageWindow.utilization with
      | [] => none
      | first :: rest => some (rest.foldl max first)

/-- The members an application may use. -/
def allowedMembers : Handling (List String) :=
  match app.settings.target with
  | .pin identity => return [identity]
  | .pool identities => do
      let names ← .attempt (.poolMembers app.settings.provider)
      if identities = [] then return names
      else
        let allowed ← all (fun name => .perform (.canonical app.settings.provider name)) identities
        return names.filter (· ∈ allowed)

/-- The readings of the members an application may use; none if they cannot be listed. -/
def memberUsages : Handling (List (Option PoolUsage)) :=
  (allowedMembers app).andThen fun
    | .ok names => all (fun name => .perform (.usageFor app.settings.provider name)) names
    | .error _ => return []

/-- A member with its use; `extra` tells that it may fall back on paid capacity. -/
structure MemberUse where
  name : String
  util : Option ℚ
  extra : Bool
  deriving DecidableEq

def MemberUse.before (first second : MemberUse) : Prop :=
  first.util.getD 1000 < second.util.getD 1000 ∨
    first.util.getD 1000 = second.util.getD 1000 ∧ (second.extra = true → first.extra = true)

instance : DecidableRel MemberUse.before := fun first second => by
  unfold MemberUse.before
  infer_instance

/-- The member with the lowest use of those below a percent; `requireKnown` leaves out those
without a reading. -/
def chooseBest (rows : List MemberUse) (exclude : Option String) (belowPercent : Option ℚ)
    (requireKnown : Bool) : Option String :=
  let ranked := rows
    |>.filter (fun row => some row.name ≠ exclude)
    |>.filter (fun row => if requireKnown then row.util.isSome else true)
    |>.filter (fun row => match belowPercent with
      | none => true
      | some percent => row.util.any (· < percent))
    |>.insertionSort MemberUse.before
  ranked.head?.map MemberUse.name

inductive RejectReason where
  | reserve
  | noHeadroom
  | noIdentities
  deriving DecidableEq

inductive Picked where
  | identity (name : String)
  | reject (reason : RejectReason)
  deriving DecidableEq

def Picked.identity? : Picked → Option String
  | .identity name => some name
  | .reject _ => none

def memberUse (name : String) : Handling MemberUse := do
  let usage ← .perform (.usageFor app.settings.provider name)
  return ⟨name, utilisationOf usage, (utilisationOf usage).isSome && usage.any PoolUsage.extraUsage⟩

/-- Of the members that were read: one with a reading is preferred. A window at 100% is full
whatever the reserve is. -/
def pickOf (rows : List MemberUse) : Picked :=
  match chooseBest rows none (some (min app.reserve (99999 / 1000))) true with
  | some known => .identity known
  | none =>
      match rows.find? (·.util.isNone) with
      | some unknown => .identity unknown.name
      | none => .reject .noHeadroom

def pickIdentity (exclude : List String) : Handling Picked :=
  match app.settings.target with
  | .pin identity => do
      let usage ← .perform (.usageFor app.settings.provider identity)
      return if (utilisationOf usage).any (app.reserve ≤ ·) then .reject .reserve
        else .identity identity
  | .pool _ => do
      let names ← allowedMembers app
      if names = [] then return .reject .noIdentities
      else
        let rows ← all (memberUse app) (names.filter (· ∉ exclude))
        return pickOf app rows

/-! ### Holds -/

def exKey (name : String) : MemberKey := (app.settings.provider, name)

def CREDENTIAL_HOLD_MS : ℚ := 10 * 60000

def BURST_HOLD_DEFAULT_MS : ℚ := 15000

def BURST_HOLD_MAX_MS : ℚ := 60000

def EXHAUSTED_DEFAULT_MS : ℚ := 5 * 60000

def EXHAUSTED_MAX_MS : ℚ := 7 * 24 * 3600000

def SUBSCRIPTION_EXHAUSTED_HEADER : String := "x-ais-subscription-exhausted"

def forget (key : MemberKey) : Handling Unit := do
  .perform (.deleteExhausted key)
  .perform (.deleteHold key)

/-- Whether a member that is marked is still held back; if its hold has ended, it is forgotten. -/
def stillHeld (key : MemberKey) (limit : ℚ) : Handling Bool := do
  let now ← .perform .now
  if limit ≤ now then
    forget key
    return false
  else if key.1 ≠ app.settings.provider then return false
  else
    match ← .perform (.hold key) with
    | some ⟨_, true, sig, _⟩ =>
        -- Released as soon as its credential file changes.
        let signature ← .perform (.signature app.settings.provider key.2)
        if signature ≠ sig then
          forget key
          return false
        else return true
    | _ => return true

def heldOf : List (MemberKey × ℚ) → Handling (List String)
  | [] => return []
  | (key, limit) :: rest => do
      let held ← stillHeld app key limit
      let names ← heldOf rest
      return if held then key.2 :: names else names

/-- The members still marked exhausted. -/
def exhaustedNames : Handling (List String) := do
  let entries ← .perform .exhausted
  heldOf app entries

/-- Hold a member whose credential failed, for long when only a person can fix it. -/
def holdCredentialFailure (name : String) (error : Thrown) : Handling Unit := do
  let long := match error with
    | .credential code _ _ => code = .loginDead || code = .retired || code = .unknownIdentity
    | _ => false
  let message := match error with
    | .credential code provider identity => clientMessage code provider identity
    | _ => "upstream credential unavailable"
  let now ← .perform .now
  .perform (.setExhausted (exKey app name)
    (now + if long then CREDENTIAL_HOLD_MS else BURST_HOLD_DEFAULT_MS))
  let sig ← if long then .perform (.signature app.settings.provider name) else pure none
  .perform (.setHold (exKey app name) ⟨.cred, long, sig, some message⟩)

/-- A proof that a subscription is exhausted, rather than a rate limit that passes. -/
def provesSubscriptionExhaustion (headers : Headers) : Bool :=
  headers.get SUBSCRIPTION_EXHAUSTED_HEADER = some "1" ||
    ["status", "5h-status", "7d-status"].any fun window =>
      (headers.get ("anthropic-ratelimit-unified-" ++ window)).any fun value =>
        runtime.toLowerCase (trim value).toList = "rejected".toList

/-- The time of a header `retry-after`, in seconds or as a date. -/
def retryAfter (value : String) (now : ℚ) : Option ℚ :=
  match (if trim value = "" then none else runtime.number value) with
  | some secs => if 0 ≤ secs then some (now + secs * 1000) else runtime.dateParse value
  | none => runtime.dateParse value

/-- Until when a member that answered a rate limit is held back. -/
def burstHoldUntil (headers : Headers) (now : ℚ) : ℚ :=
  let ms := match headers.get "retry-after" with
    | none => BURST_HOLD_DEFAULT_MS
    | some retry =>
        if trim retry = "" then BURST_HOLD_DEFAULT_MS
        else match retryAfter runtime retry now with
          | some time => max 0 (time - now)
          | none => BURST_HOLD_DEFAULT_MS
  now + min ms BURST_HOLD_MAX_MS

/-- Until when a member that answered a quota error counts as exhausted. -/
def exhaustedUntil (headers : Headers) (now : ℚ) : ℚ :=
  let reset := headers.get "anthropic-ratelimit-unified-reset"
  let unified := match (reset.bind runtime.number).filter (0 < ·) with
    | some secs => some (if secs < 100000000000 then secs * 1000 else secs)
    | none => reset.bind runtime.dateParse
  let retry := (headers.get "retry-after").bind fun retry => retryAfter runtime retry now
  match (unified.toList ++ retry.toList).filter fun time =>
      now < time ∧ time ≤ now + EXHAUSTED_MAX_MS with
  | [] => now + EXHAUSTED_DEFAULT_MS
  | first :: rest => rest.foldl max first

/-- Hold a member after an answer of quota type. -/
def holdQuota (name : String) (res : Response) : Handling Unit := do
  let now ← .perform .now
  if res.status = 402 ∨ res.status = 403 ∨
      res.status = 429 ∧ provesSubscriptionExhaustion runtime res.headers = true then
    .perform (.setExhausted (exKey app name) (exhaustedUntil runtime res.headers now))
    .perform (.deleteHold (exKey app name))
  else if res.status = 429 then
    .perform (.setExhausted (exKey app name) (burstHoldUntil runtime res.headers now))
    .perform (.setHold (exKey app name) ⟨.burst, false, none, none⟩)
  else return ()

/-! ### Waiting for a short hold -/

def SHORT_HOLD_WAIT_BUDGET_MS : ℚ := 90000

def SHORT_HOLD_MAX_WAITS : Nat := 8

def SHORT_HOLD_MIN_SLEEP_MS : ℚ := 250

/-- The hold of each of the members that have one. -/
def holdsOf : List String → Handling (List (String × Hold))
  | [] => return []
  | name :: rest => do
      let hold ← .perform (.hold (exKey app name))
      let holds ← holdsOf rest
      return match hold with
        | some hold => (name, hold) :: holds
        | none => holds

/-- Wait for the first short hold to end, if a member would be picked without the short holds.
The second component counts the waits of the request. -/
def waitForShortHold (waitStart : ℚ) (waits : Nat) : Handling (Bool × Nat) := do
  let gone ← .perform .requestAborted
  if ¬ app.settings.target.isPool ∨ SHORT_HOLD_MAX_WAITS ≤ waits ∨ gone then return (false, waits)
  else
    let now ← .perform .now
    let left := waitStart + SHORT_HOLD_WAIT_BUDGET_MS - now
    if left ≤ 0 then return (false, waits)
    else
      let held ← exhaustedNames app
      let holds ← holdsOf app held
      let shortHeld := (holds.filter fun entry => !entry.2.long).map Prod.fst
      if shortHeld = [] then return (false, waits)
      else
        match ← pickIdentity app (held.filter (· ∉ shortHeld)) with
        | .reject _ => return (false, waits)
        | .identity _ =>
            let times ← all (fun name => .perform (.exhaustedUntil (exKey app name))) shortHeld
            let soonest := match times.map (·.getD now) with
              | [] => now
              | first :: rest => rest.foldl min first
            .perform (.sleep (min (max (soonest - now) SHORT_HOLD_MIN_SLEEP_MS) left))
            let gone ← .perform .requestAborted
            return (!gone, waits + 1)

end AiSwitcher.Gateway.Proxy
