/-
This file models the budget that limits the request bodies the gateway holds for
replay, and proves that it neither leaks nor stalls. A request reserves its size, waits
in a queue while it does not fit, and gives its grant back once; its signal may abort
it at any time.

The operations run to completion, so a run of the budget is a list of operations. Requests
are numbered in the order in which they ask. The callback that reports the length of the
queue to the metrics is left out.
-/

import Mathlib.Algebra.BigOperators.Group.List.Basic
import Mathlib.Algebra.Order.BigOperators.Group.List
import Mathlib.Algebra.Ring.Int.Defs
import Mathlib.Data.List.Nodup
import Mathlib.Order.MinMax

namespace AiSwitcher.Gateway

/-! ### The operations -/

structure Waiter where
  request : Nat
  bytes : Int
  deriving DecidableEq

/-- A grant with the state of its release function. -/
structure Grant where
  request : Nat
  bytes : Int
  done : Bool
  deriving DecidableEq

/-- The budget, the grants so far in the order in which they were given, and the number of
requests. -/
structure BodyBudget where
  limit : Nat
  used : Int
  waiters : List Waiter
  grants : List Grant
  requests : Nat
  deriving DecidableEq

namespace BodyBudget

def new (limit : Nat) : BodyBudget := ⟨limit, 0, [], [], 0⟩

/-- The bytes are counted before the waiter resumes. -/
def take (budget : BodyBudget) (waiter : Waiter) : BodyBudget :=
  { budget with
    used := budget.used + waiter.bytes
    grants := budget.grants ++ [⟨waiter.request, waiter.bytes, false⟩] }

/-- Grant these waiters in arrival order while they fit; the others keep waiting. -/
def pumpFrom : List Waiter → BodyBudget → BodyBudget
  | [], budget => { budget with waiters := [] }
  | waiter :: rest, budget =>
      if budget.limit < budget.used + waiter.bytes then { budget with waiters := waiter :: rest }
      else pumpFrom rest (budget.take waiter)

def pump (budget : BodyBudget) : BodyBudget := pumpFrom budget.waiters budget

/-- Ask for bytes, under a signal that may have been aborted before. -/
def reserve (budget : BodyBudget) (bytes : Int) (aborted : Bool) : BodyBudget :=
  let want := min (max 0 bytes) budget.limit
  let waiter : Waiter := ⟨budget.requests, want⟩
  let asked := { budget with requests := budget.requests + 1 }
  if aborted then asked
  else if budget.waiters = [] ∧ budget.used + want ≤ budget.limit then asked.take waiter
  else { asked with waiters := budget.waiters ++ [waiter] }

def markDone (request : Nat) (grants : List Grant) : List Grant :=
  grants.map fun grant => if grant.request = request then { grant with done := true } else grant

/-- Call the release function of a request's grant, if it has one. -/
def release (budget : BodyBudget) (request : Nat) : BodyBudget :=
  match budget.grants.find? fun grant => grant.request = request with
  | none => budget
  | some grant =>
      if grant.done then budget
      else
        pump { budget with
          used := budget.used - grant.bytes
          grants := markDone request budget.grants }

/-- The signal of a request is aborted. A request that was granted no longer listens to it. -/
def abort (budget : BodyBudget) (request : Nat) : BodyBudget :=
  if budget.waiters.any fun waiter => waiter.request = request then
    pump { budget with
      waiters := budget.waiters.eraseP fun waiter => waiter.request = request }
  else budget

inductive Operation where
  | reserve (bytes : Int) (aborted : Bool)
  | release (request : Nat)
  | abort (request : Nat)

def step (budget : BodyBudget) : Operation → BodyBudget
  | .reserve bytes aborted => budget.reserve bytes aborted
  | .release request => budget.release request
  | .abort request => budget.abort request

def run (budget : BodyBudget) (operations : List Operation) : BodyBudget :=
  operations.foldl step budget

/-! ### What the operations keep -/

/-- The bytes of the grants that were not given back. -/
def outstanding (grants : List Grant) : Int :=
  ((grants.filter fun grant => !grant.done).map Grant.bytes).sum

/-- The requests that were granted or still wait, in that order. -/
def served (budget : BodyBudget) : List Nat :=
  budget.grants.map Grant.request ++ budget.waiters.map Waiter.request

/-- The first waiter does not fit. -/
def Drained (budget : BodyBudget) : Prop :=
  ∀ waiter ∈ budget.waiters.head?, budget.limit < budget.used + waiter.bytes

/-- What holds before the queue is pumped. -/
structure Balanced (budget : BodyBudget) : Prop where
  used : budget.used = outstanding budget.grants
  atMost : budget.used ≤ budget.limit
  granted : ∀ grant ∈ budget.grants, 0 ≤ grant.bytes
  waiting : ∀ waiter ∈ budget.waiters, 0 ≤ waiter.bytes ∧ waiter.bytes ≤ budget.limit
  increasing : budget.served.Pairwise (· < ·)
  asked : ∀ request ∈ budget.served, request < budget.requests

/-- What holds between operations. -/
structure Invariant (budget : BodyBudget) : Prop extends Balanced budget where
  drained : budget.Drained

@[simp] theorem outstanding_append (grants : List Grant) (grant : Grant) :
    outstanding (grants ++ [grant]) =
      outstanding grants + if grant.done then 0 else grant.bytes := by
  cases isDone : grant.done <;> simp [outstanding, isDone]

theorem outstanding_nonneg {grants : List Grant} (granted : ∀ grant ∈ grants, 0 ≤ grant.bytes) :
    0 ≤ outstanding grants := by
  refine List.sum_nonneg fun bytes member => ?_
  obtain ⟨grant, isOutstanding, rfl⟩ := List.mem_map.mp member
  exact granted grant (List.mem_of_mem_filter isOutstanding)

@[simp] theorem map_request_markDone (request : Nat) (grants : List Grant) :
    (markDone request grants).map Grant.request = grants.map Grant.request := by
  refine (List.map_map ..).trans (List.map_congr_left fun grant _ => ?_)
  show (if grant.request = request then { grant with done := true } else grant).request = _
  split <;> rfl

theorem markDone_of_absent {request : Nat} {grants : List Grant}
    (absent : request ∉ grants.map Grant.request) : markDone request grants = grants := by
  refine (List.map_congr_left fun grant member => if_neg fun same => ?_).trans (List.map_id grants)
  exact absent (same ▸ List.mem_map_of_mem member)

/-- The grant that is given back is counted once. -/
theorem outstanding_markDone {request : Nat} {grant : Grant} {grants : List Grant}
    (distinct : (grants.map Grant.request).Nodup)
    (found : (grants.find? fun grant => grant.request = request) = some grant)
    (notDone : grant.done = false) :
    outstanding (markDone request grants) = outstanding grants - grant.bytes := by
  induction grants with
  | nil => cases found
  | cons head rest inductionHypothesis =>
    obtain ⟨fresh, distinct⟩ := List.nodup_cons.mp distinct
    by_cases same : head.request = request
    · obtain rfl : head = grant := by simpa [same] using found
      rw [same] at fresh
      have kept := markDone_of_absent fresh
      unfold markDone at kept ⊢
      simp [outstanding, same, kept, notDone]
    · have found : (rest.find? fun grant => grant.request = request) = some grant := by
        simpa [same] using found
      have counted := inductionHypothesis distinct found
      unfold markDone outstanding at counted ⊢
      cases isDone : head.done
      · simp [same, isDone, counted, add_sub_assoc]
      · simp [same, isDone, counted]

/-! ### Pumping -/

section Pumping

variable {waiter : Waiter} {waiters : List Waiter} {budget : BodyBudget}

theorem Balanced.take (balanced : Balanced { budget with waiters := waiter :: waiters })
    (fits : ¬budget.limit < budget.used + waiter.bytes) :
    Balanced { budget.take waiter with waiters := waiters } where
  used := by
    have used := balanced.used
    simp only [BodyBudget.take, outstanding_append, Bool.false_eq_true, if_false]
    exact congrArg (· + waiter.bytes) used
  atMost := not_lt.mp fits
  granted := by
    intro grant member
    obtain member | member := List.mem_append.mp member
    · exact balanced.granted grant member
    · cases List.mem_singleton.mp member
      exact (balanced.waiting waiter List.mem_cons_self).1
  waiting := fun other member => balanced.waiting other (List.mem_cons_of_mem _ member)
  increasing := by simpa [served, BodyBudget.take] using balanced.increasing
  asked := by simpa [served, BodyBudget.take] using balanced.asked

theorem invariant_pumpFrom (balanced : Balanced { budget with waiters := waiters }) :
    Invariant (pumpFrom waiters budget) := by
  induction waiters generalizing budget with
  | nil => exact { balanced with drained := fun waiter none => nomatch none }
  | cons waiter rest inductionHypothesis =>
    rw [pumpFrom]
    split
    next full =>
      refine { balanced with drained := fun first isFirst => ?_ }
      cases isFirst
      exact full
    next fits => exact inductionHypothesis (balanced.take fits)

theorem invariant_pump (balanced : Balanced budget) : Invariant budget.pump :=
  invariant_pumpFrom balanced

theorem served_pumpFrom : (pumpFrom waiters budget).served =
    ({ budget with waiters := waiters } : BodyBudget).served := by
  induction waiters generalizing budget with
  | nil => rfl
  | cons waiter rest inductionHypothesis =>
    rw [pumpFrom]
    split
    · rfl
    · rw [inductionHypothesis]
      simp [served, BodyBudget.take]

theorem requests_pumpFrom : (pumpFrom waiters budget).requests = budget.requests := by
  induction waiters generalizing budget with
  | nil => rfl
  | cons waiter rest inductionHypothesis =>
    rw [pumpFrom]
    split
    · rfl
    · exact inductionHypothesis

end Pumping

/-! ### The operations keep the invariant -/

theorem invariant_new (limit : Nat) : Invariant (new limit) where
  used := rfl
  atMost := Int.natCast_nonneg limit
  granted := fun _ member => nomatch member
  waiting := fun _ member => nomatch member
  increasing := List.Pairwise.nil
  asked := fun _ member => nomatch member
  drained := fun _ none => nomatch none

variable {budget : BodyBudget}

/-- A new request has a number that no other has. -/
theorem Balanced.next (balanced : Balanced budget) :
    (budget.served ++ [budget.requests]).Pairwise (· < ·) ∧
      ∀ request ∈ budget.served ++ [budget.requests], request < budget.requests + 1 := by
  constructor
  · refine List.pairwise_append.mpr ⟨balanced.increasing, List.pairwise_singleton _ _, ?_⟩
    intro request member other isOther
    cases List.mem_singleton.mp isOther
    exact balanced.asked request member
  · rintro request member
    obtain member | member := List.mem_append.mp member
    · exact Nat.lt_succ_of_lt (balanced.asked request member)
    · exact List.mem_singleton.mp member ▸ Nat.lt_succ_self _

theorem Invariant.reserve (invariant : Invariant budget) (bytes : Int) (aborted : Bool) :
    Invariant (budget.reserve bytes aborted) := by
  have next := invariant.next
  have positive : 0 ≤ min (max 0 bytes) (budget.limit : Int) :=
    le_min (le_max_left _ _) (Int.natCast_nonneg _)
  have atMost : min (max 0 bytes) (budget.limit : Int) ≤ budget.limit := min_le_right _ _
  unfold BodyBudget.reserve
  dsimp only
  split
  · exact { invariant with asked := fun _ member => Nat.lt_succ_of_lt (invariant.asked _ member) }
  split
  next fits =>
    have balanced : Balanced { budget with
        requests := budget.requests + 1
        waiters := [⟨budget.requests, min (max 0 bytes) budget.limit⟩] } :=
      { invariant with
        waiting := by
          intro other member
          cases List.mem_singleton.mp member
          exact ⟨positive, atMost⟩
        increasing := by simpa [served, fits.1] using next.1
        asked := by simpa [served, fits.1] using next.2 }
    let asked : BodyBudget := { budget with requests := budget.requests + 1 }
    have taken : Balanced { asked.take ⟨budget.requests, min (max 0 bytes) budget.limit⟩ with
        waiters := [] } :=
      balanced.take (not_lt.mpr fits.2)
    rw [← fits.1] at taken
    refine { taken with drained := fun waiter isFirst => ?_ }
    rw [show (asked.take ⟨budget.requests, min (max 0 bytes) budget.limit⟩).waiters = []
      from fits.1] at isFirst
    cases isFirst
  next waits =>
    refine { invariant with waiting := ?_, increasing := ?_, asked := ?_, drained := ?_ }
    · intro other member
      obtain member | member := List.mem_append.mp member
      · exact invariant.waiting other member
      · cases List.mem_singleton.mp member
        exact ⟨positive, atMost⟩
    · simpa [served] using next.1
    · simpa [served] using next.2
    · intro first isFirst
      cases isWaiters : budget.waiters with
      | nil =>
        -- The queue was empty, so the request did not fit.
        rw [isWaiters] at isFirst
        cases isFirst
        exact not_le.mp fun fits => waits ⟨isWaiters, fits⟩
      | cons head rest =>
        rw [isWaiters] at isFirst
        exact invariant.drained first (by rw [isWaiters]; exact isFirst)

theorem Invariant.release (invariant : Invariant budget) (request : Nat) :
    Invariant (budget.release request) := by
  unfold BodyBudget.release
  split
  · exact invariant
  next grant found =>
  split
  · exact invariant
  next notDone =>
  have distinct : (budget.grants.map Grant.request).Nodup :=
    (List.pairwise_append.mp invariant.increasing).1.imp fun less => ne_of_lt less
  have counted := outstanding_markDone distinct found (Bool.not_eq_true _ ▸ notDone)
  have nonneg := invariant.granted grant (List.mem_of_find?_eq_some found)
  refine invariant_pump { invariant with
    used := ?_, atMost := ?_, granted := ?_, increasing := ?_, asked := ?_ }
  · rw [counted]
    exact congrArg (· - grant.bytes) invariant.used
  · exact (Int.sub_le_self _ nonneg).trans invariant.atMost
  · intro other member
    obtain ⟨kept, inGrants, rfl⟩ := List.mem_map.mp member
    have positive := invariant.granted kept inGrants
    split <;> exact positive
  · simpa [served] using invariant.increasing
  · simpa [served] using invariant.asked

theorem served_eraseP (budget : BodyBudget) (request : Nat) : (budget.grants.map Grant.request ++
    (budget.waiters.eraseP fun waiter => waiter.request = request).map Waiter.request).Sublist
      budget.served :=
  List.Sublist.append_left (List.eraseP_sublist.map _) _

theorem Invariant.abort (invariant : Invariant budget) (request : Nat) :
    Invariant (budget.abort request) := by
  unfold BodyBudget.abort
  split
  · refine invariant_pump { invariant with waiting := ?_, increasing := ?_, asked := ?_ }
    · exact fun waiter member => invariant.waiting waiter (List.mem_of_mem_eraseP member)
    · exact invariant.increasing.sublist (served_eraseP budget request)
    · exact fun other member => invariant.asked other ((served_eraseP budget request).subset member)
  · exact invariant

theorem Invariant.step (invariant : Invariant budget) (operation : Operation) :
    Invariant (budget.step operation) := by
  cases operation with
  | reserve bytes aborted => exact invariant.reserve bytes aborted
  | release request => exact invariant.release request
  | abort request => exact invariant.abort request

theorem Invariant.run (invariant : Invariant budget) (operations : List Operation) :
    Invariant (budget.run operations) := by
  induction operations generalizing budget with
  | nil => exact invariant
  | cons operation rest inductionHypothesis => exact inductionHypothesis (invariant.step operation)

/-! ### Requests that have left -/

/-- A request that is neither granted nor waiting, and was numbered before. -/
def Left (budget : BodyBudget) (request : Nat) : Prop :=
  request < budget.requests ∧ request ∉ budget.served

theorem Left.step {request : Nat} (left : Left budget request) (operation : Operation) :
    Left (budget.step operation) request := by
  obtain ⟨numbered, notServed⟩ := left
  cases operation with
  | reserve bytes aborted =>
    show Left (budget.reserve bytes aborted) request
    have other : request ≠ budget.requests := ne_of_lt numbered
    simp only [served, List.mem_append, not_or] at notServed
    unfold BodyBudget.reserve
    dsimp only
    split
    · exact ⟨Nat.lt_succ_of_lt numbered, by simpa [served] using notServed⟩
    split
    · exact ⟨Nat.lt_succ_of_lt numbered, by simpa [served, BodyBudget.take, other] using notServed⟩
    · exact ⟨Nat.lt_succ_of_lt numbered, by simpa [served, other] using notServed⟩
  | release released =>
    show Left (budget.release released) request
    unfold BodyBudget.release
    split
    · exact ⟨numbered, notServed⟩
    split
    · exact ⟨numbered, notServed⟩
    · rw [Left, pump, served_pumpFrom, requests_pumpFrom]
      exact ⟨numbered, by simpa [served] using notServed⟩
  | abort aborted =>
    show Left (budget.abort aborted) request
    unfold BodyBudget.abort
    split
    · rw [Left, pump, served_pumpFrom, requests_pumpFrom]
      exact ⟨numbered, fun member => notServed ((served_eraseP budget aborted).subset member)⟩
    · exact ⟨numbered, notServed⟩

theorem Left.run {request : Nat} (left : Left budget request) (operations : List Operation) :
    Left (budget.run operations) request := by
  induction operations generalizing budget with
  | nil => exact left
  | cons operation rest inductionHypothesis => exact inductionHypothesis (left.step operation)

theorem left_refused (balanced : Balanced budget) (bytes : Int) :
    Left (budget.reserve bytes true) budget.requests :=
  ⟨Nat.lt_succ_self _, fun member => lt_irrefl _ (balanced.asked _ member)⟩

/-- A waiter whose signal is aborted leaves. -/
theorem left_abort (balanced : Balanced budget) {request : Nat}
    (waits : request ∈ budget.waiters.map Waiter.request) : Left (budget.abort request) request := by
  obtain ⟨waiter, member, rfl⟩ := List.mem_map.mp waits
  have isWaiting : (budget.waiters.any fun other => other.request = waiter.request) = true :=
    List.any_eq_true.mpr ⟨waiter, member, decide_eq_true rfl⟩
  unfold BodyBudget.abort
  rw [if_pos isWaiting, Left, pump, served_pumpFrom, requests_pumpFrom]
  refine ⟨balanced.asked _ (List.mem_append_right _ waits), fun stays => ?_⟩
  obtain ⟨-, waiting, earlier⟩ := List.pairwise_append.mp balanced.increasing
  obtain isGranted | stays := List.mem_append.mp stays
  · exact lt_irrefl _ (earlier _ isGranted _ waits)
  · have isThis : decide (waiter.request = waiter.request) = true := decide_eq_true rfl
    obtain ⟨left, before, after, -, isLeft, same, remain⟩ :=
      @List.exists_of_eraseP _ (fun other => decide (other.request = waiter.request)) _ _ member isThis
    have distinct : (budget.waiters.map Waiter.request).Nodup :=
      waiting.imp fun less => ne_of_lt less
    rw [same, List.map_append, List.map_cons, List.nodup_middle, List.nodup_cons,
      of_decide_eq_true isLeft] at distinct
    rw [remain, List.map_append] at stays
    exact distinct.1 stays

/-! ### Grants that were given back -/

/-- The release function of a request's grant has been called. -/
def Released (budget : BodyBudget) (request : Nat) : Prop :=
  ∃ grant, (budget.grants.find? fun grant => grant.request = request) = some grant ∧
    grant.done = true

theorem Released.take {request : Nat} (released : Released budget request) (waiter : Waiter) :
    Released (budget.take waiter) request := by
  obtain ⟨grant, found, isDone⟩ := released
  exact ⟨grant, by simp [BodyBudget.take, List.find?_append, found], isDone⟩

theorem Released.pumpFrom {request : Nat} {waiters : List Waiter}
    (released : Released budget request) : Released (pumpFrom waiters budget) request := by
  induction waiters generalizing budget with
  | nil => exact released
  | cons waiter rest inductionHypothesis =>
    rw [BodyBudget.pumpFrom]
    split
    · exact released
    · exact inductionHypothesis (released.take waiter)

theorem find?_markDone (request released : Nat) (grants : List Grant) :
    (markDone released grants).find? (fun grant => grant.request = request) =
      (grants.find? fun grant => grant.request = request).map fun grant =>
        if grant.request = released then { grant with done := true } else grant := by
  rw [markDone, List.find?_map]
  congr 2
  funext grant
  show decide ((if grant.request = released then _ else grant).request = request) = _
  split <;> rfl

theorem Released.step {request : Nat} (released : Released budget request)
    (operation : Operation) : Released (budget.step operation) request := by
  cases operation with
  | reserve bytes aborted =>
    show Released (budget.reserve bytes aborted) request
    unfold BodyBudget.reserve
    dsimp only
    split
    · exact released
    split
    · exact Released.take released _
    · exact released
  | release other =>
    show Released (budget.release other) request
    unfold BodyBudget.release
    split
    · exact released
    split
    · exact released
    · refine Released.pumpFrom ?_
      obtain ⟨grant, found, isDone⟩ := released
      refine ⟨_, (find?_markDone ..).trans (congrArg _ found), ?_⟩
      show (if grant.request = other then { grant with done := true } else grant).done = true
      split
      · rfl
      · exact isDone
  | abort aborted =>
    show Released (budget.abort aborted) request
    unfold BodyBudget.abort
    split
    · exact Released.pumpFrom released
    · exact released

theorem Released.run {request : Nat} (released : Released budget request)
    (operations : List Operation) : Released (budget.run operations) request := by
  induction operations generalizing budget with
  | nil => exact released
  | cons operation rest inductionHypothesis =>
    exact inductionHypothesis (released.step operation)

theorem released_release {request : Nat} (granted : request ∈ budget.grants.map Grant.request) :
    Released (budget.release request) request := by
  obtain ⟨grant, member, rfl⟩ := List.mem_map.mp granted
  unfold BodyBudget.release
  split
  next none =>
    exact absurd (decide_eq_true rfl) (List.find?_eq_none.mp none grant member)
  next found isFound =>
  split
  next isDone => exact ⟨found, isFound, isDone⟩
  next =>
    refine Released.pumpFrom ⟨_, (find?_markDone ..).trans (congrArg _ isFound), ?_⟩
    have same := List.find?_some isFound
    simp only [decide_eq_true_eq] at same
    show (if found.request = grant.request then { found with done := true } else found).done = true
    rw [if_pos same]

/-- Calling the release function again changes nothing. -/
theorem Released.release {request : Nat} (released : Released budget request) :
    budget.release request = budget := by
  obtain ⟨grant, found, isDone⟩ := released
  simp only [BodyBudget.release, found, isDone, if_true]

theorem limit_pumpFrom {waiters : List Waiter} : (pumpFrom waiters budget).limit = budget.limit := by
  induction waiters generalizing budget with
  | nil => rfl
  | cons waiter rest inductionHypothesis =>
    rw [pumpFrom]
    split
    · rfl
    · exact inductionHypothesis

theorem limit_run (operations : List Operation) :
    (budget.run operations).limit = budget.limit := by
  induction operations generalizing budget with
  | nil => rfl
  | cons operation rest inductionHypothesis =>
    refine inductionHypothesis.trans ?_
    cases operation with
    | reserve bytes aborted =>
      show (budget.reserve bytes aborted).limit = _
      unfold BodyBudget.reserve
      dsimp only
      split
      · rfl
      split <;> rfl
    | release request =>
      show (budget.release request).limit = _
      unfold BodyBudget.release
      split
      · rfl
      split
      · rfl
      · exact limit_pumpFrom
    | abort request =>
      show (budget.abort request).limit = _
      unfold BodyBudget.abort
      split
      · exact limit_pumpFrom
      · rfl

/-- While a request waits, some grant was not given back. -/
theorem Invariant.holds_grant (invariant : Invariant budget) {waiter : Waiter}
    (waits : waiter ∈ budget.waiters) : ∃ grant ∈ budget.grants, grant.done = false := by
  by_contra none
  have returned : outstanding budget.grants = 0 := by
    have empty : (budget.grants.filter fun grant => !grant.done) = [] :=
      List.filter_eq_nil_iff.mpr fun grant member notDone =>
        none ⟨grant, member, by simpa using notDone⟩
    simp [outstanding, empty]
  cases isWaiters : budget.waiters with
  | nil =>
    rw [isWaiters] at waits
    cases waits
  | cons head rest =>
    have full := invariant.drained head (by rw [isWaiters]; rfl)
    have atMost := (invariant.waiting head (by rw [isWaiters]; exact List.mem_cons_self)).2
    rw [invariant.used, returned, zero_add] at full
    exact absurd full (not_lt.mpr atMost)

end BodyBudget

open BodyBudget in
/-- After every run of the budget its bytes are those of the outstanding grants, within the limit,
and the first waiter does not fit, so some grant is still outstanding. Grants are given in the
order of the requests, an aborted request is never granted, and only the first call of a release
function does anything. -/
theorem bodyBudget_neitherLeaksNorStalls (limit : Nat) (operations : List Operation) :
    let budget := (new limit).run operations
    let granted (budget : BodyBudget) := budget.grants.map Grant.request
    (budget.used = outstanding budget.grants ∧ 0 ≤ budget.used ∧ budget.used ≤ limit) ∧
      (granted budget ++ budget.waiters.map Waiter.request).Pairwise (· < ·) ∧
      (∀ request ∈ granted budget, ∀ later,
        ((budget.release request).run later).release request =
          (budget.release request).run later) ∧
      (∀ request ∈ budget.waiters.map Waiter.request, ∀ later,
        request ∉ granted ((budget.abort request).run later)) ∧
      (∀ bytes later, budget.requests ∉ granted ((budget.reserve bytes true).run later)) ∧
      (∀ waiter ∈ budget.waiters.head?, limit < budget.used + waiter.bytes) ∧
      ∀ waiter ∈ budget.waiters, ∃ grant ∈ budget.grants, grant.done = false := by
  intro budget granted
  have invariant : Invariant budget := (invariant_new limit).run operations
  have isLimit : budget.limit = limit := limit_run operations
  have notGranted : ∀ {other request}, Left other request → request ∉ granted other :=
    fun left member => left.2 (List.mem_append_left _ member)
  refine ⟨⟨invariant.used, ?_, ?_⟩, invariant.increasing, ?_, ?_, ?_, ?_, ?_⟩
  · rw [invariant.used]
    exact outstanding_nonneg invariant.granted
  · rw [← isLimit]
    exact invariant.atMost
  · intro request member later
    exact ((released_release member).run later).release
  · intro request waits later
    exact notGranted ((left_abort invariant.toBalanced waits).run later)
  · intro bytes later
    exact notGranted ((left_refused invariant.toBalanced bytes).run later)
  · rw [← isLimit]
    exact invariant.drained
  · intro waiter waits
    exact invariant.holds_grant waits

end AiSwitcher.Gateway
