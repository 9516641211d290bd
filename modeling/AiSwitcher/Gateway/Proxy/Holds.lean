/-
This file proves how long a proven quota hold lasts. The holds are shared by all requests, and
a request runs alone up to the next thing it waits for; of the calls that read and write the
holds, that is the signature of a credential file. The marks therefore change in blocks: one
for each quota answer, for each failed credential and for each part of a sweep over the
members held back.

A hold is written over by the next one of its member, whichever ends first, and a sweep that
waited goes on with the list it began with. So a proven hold lasts until its reset if nothing
recorded later for its member ends before, no sweep comes to an entry of the member on its
list that has ended, and none is told that the member's credential has changed.
-/

import AiSwitcher.Library.EventLoop
import AiSwitcher.Gateway.Proxy.Selection

namespace AiSwitcher.Gateway.Proxy

open JavaScript Interrupted

/-! ### The marks -/

/-- The clock and the two maps that all requests share. -/
structure Marks where
  now : ℚ
  exhausted : List (MemberKey × ℚ)
  holds : List (MemberKey × Hold)
  deriving DecidableEq

namespace Marks

def setExhausted (marks : Marks) (key : MemberKey) (limit : ℚ) : Marks :=
  { marks with exhausted := OrderedMap.set marks.exhausted key limit }

def deleteExhausted (marks : Marks) (key : MemberKey) : Marks :=
  { marks with exhausted := OrderedMap.delete marks.exhausted key }

def setHold (marks : Marks) (key : MemberKey) (hold : Hold) : Marks :=
  { marks with holds := OrderedMap.set marks.holds key hold }

def deleteHold (marks : Marks) (key : MemberKey) : Marks :=
  { marks with holds := OrderedMap.delete marks.holds key }

def forget (marks : Marks) (key : MemberKey) : Marks :=
  (marks.deleteExhausted key).deleteHold key

/-- What a request does to the marks without waiting. -/
def instant : Instant GatewayAction Marks
  | _, .now, marks => some (marks.now, marks)
  | _, .exhausted, marks => some (marks.exhausted, marks)
  | _, .hold key, marks => some (marks.holds.lookup key, marks)
  | _, .setExhausted key limit, marks => some ((), marks.setExhausted key limit)
  | _, .deleteExhausted key, marks => some ((), marks.deleteExhausted key)
  | _, .setHold key hold, marks => some ((), marks.setHold key hold)
  | _, .deleteHold key, marks => some ((), marks.deleteHold key)
  | _, _, _ => none

/-- The member's hold has ended, or it has none. -/
def Eligible (marks : Marks) (key : MemberKey) : Prop :=
  ∀ limit, (key, limit) ∈ marks.exhausted → limit ≤ marks.now

instance (marks : Marks) (key : MemberKey) : Decidable (marks.Eligible key) :=
  decidable_of_iff (∀ entry ∈ marks.exhausted, entry.1 = key → entry.2 ≤ marks.now)
    ⟨fun ended limit member => ended (key, limit) member rfl,
      fun eligible entry member same => eligible entry.2 (same ▸ member)⟩

end Marks

/-! ### Quota answers -/

section Quota

variable {Native : Type} (runtime : ProxyRuntime Native)

/-- An answer that proves that the quota is used up. -/
def provesQuota (res : Response) : Bool :=
  res.status = 402 || res.status = 403 ||
    (res.status = 429 && provesSubscriptionExhaustion runtime res.headers)

/-- Until when an answer holds its member back; `none` if it does not. -/
def quotaLimit (res : Response) (now : ℚ) : Option ℚ :=
  if provesQuota runtime res then some (exhaustedUntil runtime res.headers now)
  else if res.status = 429 then some (burstHoldUntil runtime res.headers now)
  else none

/-- The marks after an answer. -/
def Marks.answered (marks : Marks) (key : MemberKey) (res : Response) : Marks :=
  match quotaLimit runtime res marks.now with
  | none => marks
  | some limit =>
      if provesQuota runtime res then (marks.setExhausted key limit).deleteHold key
      else (marks.setExhausted key limit).setHold key ⟨.burst, false, none, none⟩

theorem block_holdQuota (app : App) (name : String) (res : Response) (marks : Marks) :
    (holdQuota runtime app name res).block Marks.instant marks =
      (.done (), marks.answered runtime (exKey app name) res) := by
  have proves : (res.status = 402 ∨ res.status = 403 ∨
      res.status = 429 ∧ provesSubscriptionExhaustion runtime res.headers = true) ↔
      provesQuota runtime res = true := by
    simp only [provesQuota, Bool.or_eq_true, Bool.and_eq_true, decide_eq_true_iff, or_assoc]
  refine (Program.block_answered _ rfl).trans ?_
  dsimp only [Program.bind, Program.done]
  rw [if_congr proves rfl rfl, Marks.answered, quotaLimit]
  by_cases proven : provesQuota runtime res = true
  · rw [if_pos proven, if_pos proven]
    dsimp only
    rw [if_pos proven]
    rfl
  · rw [if_neg proven, if_neg proven]
    by_cases limited : res.status = 429
    · rw [if_pos limited, if_pos limited]
      dsimp only
      rw [if_neg proven]
      rfl
    · rw [if_neg limited, if_neg limited]
      rfl

end Quota

/-! ### Failed credentials -/

/-- Only a person can make the credential work again. -/
def needsPerson : Thrown → Bool
  | .credential code _ _ => code = .loginDead || code = .retired || code = .unknownIdentity
  | _ => false

def credentialMessage : Thrown → String
  | .credential code provider identity => clientMessage code provider identity
  | _ => "upstream credential unavailable"

def credentialHoldMs (error : Thrown) : ℚ :=
  if needsPerson error then CREDENTIAL_HOLD_MS else BURST_HOLD_DEFAULT_MS

def credentialHold (error : Thrown) (sig : Option String) : Hold :=
  ⟨.cred, needsPerson error, sig, some (credentialMessage error)⟩

/-- The member is marked; its hold is set at once only if it is short. -/
def Marks.credentialFailed (marks : Marks) (key : MemberKey) (error : Thrown) : Marks :=
  let marked := marks.setExhausted key (marks.now + credentialHoldMs error)
  if needsPerson error then marked else marked.setHold key (credentialHold error none)

/-- What is left when the signature for a long hold is asked for. -/
def holdSigned (app : App) (name : String) (error : Thrown) : Handling Unit :=
  .act (.signature app.settings.provider name) fun sig =>
    .perform (.setHold (exKey app name) (credentialHold error sig))

theorem holdCredentialFailure_eq (app : App) (name : String) (error : Thrown) :
    holdCredentialFailure app name error = (do
      let now ← .perform .now
      .perform (.setExhausted (exKey app name) (now + credentialHoldMs error))
      let sig ← if needsPerson error then .perform (.signature app.settings.provider name)
        else pure none
      .perform (.setHold (exKey app name) (credentialHold error sig))) := by
  cases error with
  | credential code provider identity => cases code <;> rfl
  | _ => rfl

theorem block_holdCredentialFailure (app : App) (name : String) (error : Thrown) (marks : Marks) :
    (holdCredentialFailure app name error).block Marks.instant marks =
      (if needsPerson error then holdSigned app name error else .done (),
        marks.credentialFailed (exKey app name) error) := by
  rw [holdCredentialFailure_eq, Marks.credentialFailed]
  cases long : needsPerson error with
  | true => rfl
  | false => rfl

theorem block_holdSigned (app : App) (name : String) (error : Thrown) (sig : Option String)
    (marks : Marks) :
    (Program.perform (.setHold (exKey app name) (credentialHold error sig)) :
      Handling Unit).block Marks.instant marks =
      (.done (), marks.setHold (exKey app name) (credentialHold error sig)) := rfl

/-! ### Sweeps -/

/-- What a sweep finds at an entry of its list. -/
inductive Visit where
  | ended
  | other
  | waits (sig : Option String)
  | held
  deriving DecidableEq

def Marks.visit (marks : Marks) (provider : GatewayProvider) (entry : MemberKey × ℚ) : Visit :=
  if entry.2 ≤ marks.now then .ended
  else if entry.1.1 ≠ provider then .other
  else match marks.holds.lookup entry.1 with
    | some ⟨_, true, sig, _⟩ => .waits sig
    | _ => .held

/-- A sweep that waits for the signature of the credential of `key`: the names it has found held,
the signature that the hold was set with, and the rest of its list. -/
structure Sweep where
  provider : GatewayProvider
  names : List String
  key : MemberKey
  sig : Option String
  rest : List (MemberKey × ℚ)
  deriving DecidableEq

/-- A part of a sweep: the names it ends with, or what it waits for, and the marks. -/
def Marks.sweep (provider : GatewayProvider) :
    List (MemberKey × ℚ) → List String → Marks → (List String ⊕ Sweep) × Marks
  | [], names, marks => (.inl names, marks)
  | entry :: rest, names, marks =>
      match marks.visit provider entry with
      | .ended => sweep provider rest names (marks.forget entry.1)
      | .other => sweep provider rest names marks
      | .waits sig => (.inr ⟨provider, names, entry.1, sig, rest⟩, marks)
      | .held => sweep provider rest (names ++ [entry.1.2]) marks

/-- The part of a sweep after it was told a signature. -/
def Sweep.signed (sweep : Sweep) (signature : Option String) (marks : Marks) :
    (List String ⊕ Sweep) × Marks :=
  if signature ≠ sweep.sig then
    Marks.sweep sweep.provider sweep.rest sweep.names (marks.forget sweep.key)
  else Marks.sweep sweep.provider sweep.rest (sweep.names ++ [sweep.key.2]) marks

section Programs

variable {Result : Type} (app : App) (goesOn : List String → Handling Result)

/-- The rest of a request that goes on with the names a sweep finds. -/
def sweepRest (names : List String) (entries : List (MemberKey × ℚ)) : Handling Result :=
  heldOf app entries >>= fun found => goesOn (names ++ found)

/-- A request whose sweep was told the signature it waited for. -/
def Sweep.told (sweep : Sweep) (signature : Option String) : Handling Result :=
  if signature ≠ sweep.sig then
    forget sweep.key >>= fun _ => sweepRest app goesOn sweep.names sweep.rest
  else sweepRest app goesOn (sweep.names ++ [sweep.key.2]) sweep.rest

/-- A request whose sweep waits. -/
def Sweep.waiting (sweep : Sweep) : Handling Result :=
  .act (.signature app.settings.provider sweep.key.2) (sweep.told app goesOn)

/-- The request after a part of its sweep. -/
def sweepNext : List String ⊕ Sweep → Marks → Handling Result × Marks
  | .inl names, marks => (goesOn names).block Marks.instant marks
  | .inr sweep, marks => (sweep.waiting app goesOn, marks)

theorem sweepRest_cons (names : List String) (key : MemberKey) (limit : ℚ)
    (rest : List (MemberKey × ℚ)) :
    sweepRest app goesOn names ((key, limit) :: rest) = stillHeld app key limit >>= fun held =>
      sweepRest app goesOn (if held then names ++ [key.2] else names) rest := by
  simp only [sweepRest, heldOf, Program.bind_assoc]
  refine congrArg (stillHeld app key limit >>= ·) (funext fun held => ?_)
  refine congrArg (heldOf app rest >>= ·) (funext fun found => ?_)
  cases held with
  | true => exact congrArg goesOn (List.append_cons names key.2 found)
  | false => rfl

theorem block_forget_bind (key : MemberKey) (next : Handling Result) (marks : Marks) :
    (forget key >>= fun _ => next).block Marks.instant marks =
      next.block Marks.instant (marks.forget key) := rfl

/-- A request after it came to an entry of its list, by what it found. -/
def Visit.next (marks : Marks) (key : MemberKey) (next : Bool → Handling Result) :
    Visit → Handling Result × Marks
  | .ended => (next false).block Marks.instant (marks.forget key)
  | .other => (next false).block Marks.instant marks
  | .waits sig =>
      (.act (.signature app.settings.provider key.2) fun signature =>
        if signature ≠ sig then forget key >>= fun _ => next false else next true, marks)
  | .held => (next true).block Marks.instant marks

theorem ite_bind {condition : Prop} [Decidable condition] (first second : Handling Bool)
    (next : Bool → Handling Result) :
    (if condition then first else second) >>= next =
      if condition then first >>= next else second >>= next := by
  split <;> rfl

theorem block_stillHeld_bind (key : MemberKey) (limit : ℚ) (next : Bool → Handling Result)
    (marks : Marks) :
    (stillHeld app key limit >>= next).block Marks.instant marks =
      (marks.visit app.settings.provider (key, limit)).next app marks key next := by
  rw [stillHeld, Program.bind_assoc]
  refine (Program.block_answered _ rfl).trans ?_
  rw [Marks.visit]
  by_cases ended : limit ≤ marks.now
  · rw [if_pos ended]
    dsimp only [Program.done, Program.bind]
    rw [if_pos ended]
    rfl
  rw [if_neg ended]
  dsimp only [Program.bind]
  rw [if_neg ended]
  by_cases other : key.1 ≠ app.settings.provider
  · rw [if_pos other, if_pos other]
    rfl
  rw [if_neg other, if_neg other, Program.bind_assoc]
  refine (Program.block_answered _ rfl).trans ?_
  cases marks.holds.lookup key with
  | none => rfl
  | some hold =>
    obtain ⟨kind, long, sig, message⟩ := hold
    cases long with
    | false => rfl
    | true =>
      refine Prod.ext (congrArg (Program.act _) (funext fun signature => ?_)) rfl
      exact ite_bind _ _ next

/-- A part of a sweep is what its program does up to its next wait. -/
theorem block_sweepRest (entries : List (MemberKey × ℚ)) (names : List String) (marks : Marks) :
    (sweepRest app goesOn names entries).block Marks.instant marks =
      sweepNext app goesOn (Marks.sweep app.settings.provider entries names marks).1
        (Marks.sweep app.settings.provider entries names marks).2 := by
  induction entries generalizing names marks with
  | nil => exact congrArg (Program.block Marks.instant · marks) (congrArg goesOn names.append_nil)
  | cons entry rest inductionHypothesis =>
    obtain ⟨key, limit⟩ := entry
    rw [sweepRest_cons, block_stillHeld_bind, Marks.sweep]
    cases marks.visit app.settings.provider (key, limit) with
    | ended => exact inductionHypothesis names (marks.forget key)
    | other => exact inductionHypothesis names marks
    | waits sig => rfl
    | held => exact inductionHypothesis (names ++ [key.2]) marks

theorem block_exhaustedNames_bind (marks : Marks) :
    (exhaustedNames app >>= goesOn).block Marks.instant marks =
      sweepNext app goesOn (Marks.sweep app.settings.provider marks.exhausted [] marks).1
        (Marks.sweep app.settings.provider marks.exhausted [] marks).2 :=
  block_sweepRest app goesOn marks.exhausted [] marks

theorem block_told (sweep : Sweep) (ofApp : sweep.provider = app.settings.provider)
    (signature : Option String) (marks : Marks) :
    (sweep.told app goesOn signature).block Marks.instant marks =
      sweepNext app goesOn (sweep.signed signature marks).1 (sweep.signed signature marks).2 := by
  rw [Sweep.told, Sweep.signed, ofApp]
  split
  · exact block_sweepRest app goesOn sweep.rest sweep.names (marks.forget sweep.key)
  · exact block_sweepRest app goesOn sweep.rest (sweep.names ++ [sweep.key.2]) marks

end Programs

/-- The entries a part of a sweep comes to; at the last one it may wait. -/
def Marks.visited (provider : GatewayProvider) :
    List (MemberKey × ℚ) → Marks → List (MemberKey × ℚ)
  | [], _ => []
  | entry :: rest, marks =>
      match marks.visit provider entry with
      | .ended => entry :: visited provider rest (marks.forget entry.1)
      | .other => entry :: visited provider rest marks
      | .waits _ => [entry]
      | .held => entry :: visited provider rest marks

/-! ### The requests together -/

/-- A call that waits for a signature. -/
inductive Task where
  | sweep (sweep : Sweep)
  | hold (key : MemberKey) (error : Thrown)
  deriving DecidableEq

/-- The marks, and the calls of all requests that wait. -/
structure Shared where
  marks : Marks
  tasks : List Task
  deriving DecidableEq

/-- What may happen next: time passes, an upstream answers, a credential fails, a request starts a
sweep, or a call that waits is told the signature. -/
inductive HoldEvent where
  | passes (time : ℚ)
  | answered (key : MemberKey) (res : Response)
  | failed (key : MemberKey) (error : Thrown)
  | sweeps (provider : GatewayProvider)
  | signed (index : Nat) (signature : Option String)
  deriving DecidableEq

def Shared.swept (tasks : List Task) : (List String ⊕ Sweep) × Marks → Shared
  | (.inl _, marks) => ⟨marks, tasks⟩
  | (.inr sweep, marks) => ⟨marks, .sweep sweep :: tasks⟩

section Steps

variable {Native : Type} (runtime : ProxyRuntime Native)

def Shared.step (state : Shared) : HoldEvent → Shared
  | .passes time => { state with marks.now := max state.marks.now time }
  | .answered key res => { state with marks := state.marks.answered runtime key res }
  | .failed key error =>
      ⟨state.marks.credentialFailed key error,
        if needsPerson error then .hold key error :: state.tasks else state.tasks⟩
  | .sweeps provider => .swept state.tasks (Marks.sweep provider state.marks.exhausted [] state.marks)
  | .signed index signature =>
      match state.tasks[index]? with
      | none => state
      | some (.sweep sweep) =>
          .swept (state.tasks.eraseIdx index) (sweep.signed signature state.marks)
      | some (.hold key error) =>
          ⟨state.marks.setHold key (credentialHold error signature), state.tasks.eraseIdx index⟩

def Shared.run (state : Shared) (events : List HoldEvent) : Shared :=
  events.foldl (Shared.step runtime) state

/-! ### Steps that spare a hold -/

variable (key : MemberKey) (limit : ℚ)

/-- The sweep is told that the credential of the member has not changed, and comes to no entry of
the member that has ended. -/
def Sweep.Spares (sweep : Sweep) (signature : Option String) (marks : Marks) : Prop :=
  (sweep.key = key → signature = sweep.sig) ∧
    ∀ entry ∈ Marks.visited sweep.provider sweep.rest
      (if signature ≠ sweep.sig then marks.forget sweep.key else marks),
      entry.1 = key → marks.now < entry.2

/-- The step records nothing for the member that ends before `limit`, and is no step of a sweep that
forgets it. -/
def HoldEvent.Spares (state : Shared) : HoldEvent → Prop
  | .answered other res =>
      other = key → ∀ ends ∈ quotaLimit runtime res state.marks.now, limit ≤ ends
  | .failed other error => other = key → limit ≤ state.marks.now + credentialHoldMs error
  | .signed index signature =>
      ∀ sweep, state.tasks[index]? = some (.sweep sweep) → sweep.Spares key signature state.marks
  | _ => True

/-- Every step before `limit` spares the hold of the member. -/
def Shared.Spared (state : Shared) : List HoldEvent → Prop
  | [] => True
  | event :: rest =>
      (state.marks.now < limit → event.Spares runtime key limit state) ∧
        (state.step runtime event).Spared rest

/-- The member is not eligible before `limit`, whatever time passes until then. -/
def Shared.HeldBack (state : Shared) : Prop :=
  ∀ time, state.marks.now ≤ time → time < limit →
    ¬ (state.step runtime (.passes time)).marks.Eligible key

end Steps

/-! ### What a sweep finds -/

theorem Marks.forget_now (marks : Marks) (key : MemberKey) : (marks.forget key).now = marks.now :=
  rfl

theorem Marks.mem_forget {marks : Marks} {key : MemberKey} {entry : MemberKey × ℚ} :
    entry ∈ (marks.forget key).exhausted ↔ entry.1 ≠ key ∧ entry ∈ marks.exhausted :=
  OrderedMap.mem_delete

theorem Marks.sweep_now (provider : GatewayProvider) (entries : List (MemberKey × ℚ))
    (names : List String) (marks : Marks) :
    (Marks.sweep provider entries names marks).2.now = marks.now := by
  induction entries generalizing names marks with
  | nil => rfl
  | cons entry rest inductionHypothesis =>
    rw [Marks.sweep]
    cases marks.visit provider entry with
    | ended => exact inductionHypothesis names (marks.forget entry.1)
    | other => exact inductionHypothesis names marks
    | waits sig => rfl
    | held => exact inductionHypothesis (names ++ [entry.1.2]) marks

theorem Marks.visit_ended_iff {marks : Marks} {provider : GatewayProvider}
    {entry : MemberKey × ℚ} : marks.visit provider entry = .ended ↔ entry.2 ≤ marks.now := by
  rw [Marks.visit]
  by_cases ended : entry.2 ≤ marks.now
  · rw [if_pos ended]
    exact ⟨fun _ => ended, fun _ => rfl⟩
  · rw [if_neg ended]
    refine ⟨fun isEnded => ?_, fun isEnded => absurd isEnded ended⟩
    split at isEnded
    · cases isEnded
    · split at isEnded <;> cases isEnded

theorem Marks.visit_other_iff {marks : Marks} {provider : GatewayProvider}
    {entry : MemberKey × ℚ} :
    marks.visit provider entry = .other ↔ marks.now < entry.2 ∧ entry.1.1 ≠ provider := by
  rw [Marks.visit]
  by_cases ended : entry.2 ≤ marks.now
  · rw [if_pos ended]
    exact ⟨fun isOther => (by cases isOther), fun later => absurd later.1 (not_lt_of_ge ended)⟩
  · rw [if_neg ended]
    by_cases other : entry.1.1 ≠ provider
    · rw [if_pos other]
      exact ⟨fun _ => ⟨lt_of_not_ge ended, other⟩, fun _ => rfl⟩
    · rw [if_neg other]
      refine ⟨fun isOther => ?_, fun later => absurd later.2 other⟩
      split at isOther <;> cases isOther

/-- A sweep that does not wait finds the members of its provider whose holds have not ended. -/
theorem Marks.mem_sweep {provider : GatewayProvider} {entries : List (MemberKey × ℚ)}
    {names found : List String} {marks : Marks} (name : String)
    (ends : (Marks.sweep provider entries names marks).1 = .inl found) :
    name ∈ found ↔
      name ∈ names ∨ ∃ limit, ((provider, name), limit) ∈ entries ∧ marks.now < limit := by
  induction entries generalizing names marks with
  | nil =>
    obtain rfl := Sum.inl.inj ends
    simp
  | cons entry rest inductionHypothesis =>
    have rest_of (skipped : ¬ (marks.now < entry.2 ∧ entry.1.1 = provider)) :
        (∃ limit, ((provider, name), limit) ∈ entry :: rest ∧ marks.now < limit) ↔
          ∃ limit, ((provider, name), limit) ∈ rest ∧ marks.now < limit := by
      refine exists_congr fun limit => ⟨fun ⟨member, later⟩ => ⟨?_, later⟩,
        fun ⟨member, later⟩ => ⟨List.mem_cons_of_mem _ member, later⟩⟩
      rcases List.mem_cons.mp member with rfl | inRest
      · exact absurd ⟨later, rfl⟩ skipped
      · exact inRest
    rw [Marks.sweep] at ends
    cases visited : marks.visit provider entry with
    | ended =>
      rw [visited] at ends
      have ended := Marks.visit_ended_iff.mp visited
      rw [rest_of fun later => absurd later.1 (not_lt_of_ge ended)]
      exact @inductionHypothesis names (marks.forget entry.1) ends
    | other =>
      rw [visited] at ends
      rw [rest_of fun ours => (Marks.visit_other_iff.mp visited).2 ours.2]
      exact inductionHypothesis ends
    | waits sig =>
      rw [visited] at ends
      cases ends
    | held =>
      rw [visited] at ends
      have later : marks.now < entry.2 := lt_of_not_ge fun ended => by
        rw [Marks.visit_ended_iff.mpr ended] at visited
        cases visited
      have ours : entry.1.1 = provider := by
        by_contra other
        rw [Marks.visit_other_iff.mpr ⟨later, other⟩] at visited
        cases visited
      refine (inductionHypothesis ends).trans ?_
      simp only [List.mem_append, List.mem_cons, List.not_mem_nil, or_false, or_assoc]
      refine or_congr_right ⟨fun inRest => ?_, fun inList => ?_⟩
      · rcases inRest with rfl | ⟨limit, member, before⟩
        · exact ⟨entry.2, .inl (Prod.ext (Prod.ext ours.symm rfl) rfl), later⟩
        · exact ⟨limit, .inr member, before⟩
      · obtain ⟨limit, isEntry | member, before⟩ := inList
        · exact .inl (congrArg (fun entry : MemberKey × ℚ => entry.1.2) isEntry)
        · exact .inr ⟨limit, member, before⟩

/-- The members that are not eligible are those that a sweep that does not wait finds held. -/
theorem Marks.eligible_iff {provider : GatewayProvider} {names : List String} {marks : Marks}
    (name : String) (ends : (Marks.sweep provider marks.exhausted [] marks).1 = .inl names) :
    marks.Eligible (provider, name) ↔ name ∉ names := by
  rw [Marks.mem_sweep name ends, Marks.Eligible]
  simp

/-! ### How long a hold lasts -/

/-- The member is marked, and until `limit` at least. -/
def Marks.HeldUntil (marks : Marks) (key : MemberKey) (limit : ℚ) : Prop :=
  (∃ ends, (key, ends) ∈ marks.exhausted) ∧ ∀ ends, (key, ends) ∈ marks.exhausted → limit ≤ ends

section Lasting

variable {key : MemberKey} {limit : ℚ} {marks : Marks}

theorem Marks.HeldUntil.not_eligible (held : marks.HeldUntil key limit)
    (before : marks.now < limit) : ¬ marks.Eligible key := by
  obtain ⟨⟨ends, marked⟩, later⟩ := held
  exact fun eligible => absurd (eligible ends marked)
    (not_le_of_gt (lt_of_lt_of_le before (later ends marked)))

theorem Marks.mem_setExhausted {other : MemberKey} {ends : ℚ} {entry : MemberKey × ℚ} :
    entry ∈ (marks.setExhausted other ends).exhausted ↔
      entry = (other, ends) ∨ entry.1 ≠ other ∧ entry ∈ marks.exhausted :=
  OrderedMap.mem_set

theorem Marks.HeldUntil.setExhausted (held : marks.HeldUntil key limit) {other : MemberKey}
    {ends : ℚ} (spares : other = key → limit ≤ ends) :
    (marks.setExhausted other ends).HeldUntil key limit := by
  by_cases same : other = key
  · subst same
    refine ⟨⟨ends, Marks.mem_setExhausted.mpr (.inl rfl)⟩, fun found member => ?_⟩
    rcases Marks.mem_setExhausted.mp member with isSet | ⟨different, -⟩
    · have same : found = ends := (Prod.ext_iff.mp isSet).2
      exact same ▸ spares rfl
    · exact absurd rfl different
  · obtain ⟨⟨marked, isMarked⟩, later⟩ := held
    refine ⟨⟨marked, Marks.mem_setExhausted.mpr (.inr ⟨Ne.symm same, isMarked⟩)⟩,
      fun found member => ?_⟩
    rcases Marks.mem_setExhausted.mp member with isSet | ⟨-, wasThere⟩
    · exact absurd (Prod.ext_iff.mp isSet).1.symm same
    · exact later found wasThere

theorem Marks.heldUntil_setExhausted (marks : Marks) (key : MemberKey) (limit : ℚ) :
    (marks.setExhausted key limit).HeldUntil key limit := by
  refine ⟨⟨limit, Marks.mem_setExhausted.mpr (.inl rfl)⟩, fun found member => ?_⟩
  rcases Marks.mem_setExhausted.mp member with isSet | ⟨different, -⟩
  · exact le_of_eq (Prod.ext_iff.mp isSet).2.symm
  · exact absurd rfl different

/-- An entry that ends too early is the only one of its member, so the member is free then. -/
theorem Marks.eligible_setExhausted {ends time : ℚ} (ended : ends ≤ time) :
    ({ marks.setExhausted key ends with now := time } : Marks).Eligible key := by
  intro found member
  rcases Marks.mem_setExhausted.mp member with isSet | ⟨different, -⟩
  · have same : found = ends := (Prod.ext_iff.mp isSet).2
    exact same ▸ ended
  · exact absurd rfl different

theorem Marks.HeldUntil.forget (held : marks.HeldUntil key limit) {other : MemberKey}
    (different : other ≠ key) : (marks.forget other).HeldUntil key limit := by
  obtain ⟨⟨ends, marked⟩, later⟩ := held
  exact ⟨⟨ends, Marks.mem_forget.mpr ⟨Ne.symm different, marked⟩⟩,
    fun found member => later found (Marks.mem_forget.mp member).2⟩

/-- The member has no entry left. -/
def Marks.Forgotten (marks : Marks) (key : MemberKey) : Prop :=
  ∀ ends, (key, ends) ∉ marks.exhausted

theorem Marks.Forgotten.eligible (forgotten : marks.Forgotten key) : marks.Eligible key :=
  fun ends member => absurd member (forgotten ends)

theorem Marks.forgotten_forget (marks : Marks) (key : MemberKey) :
    (marks.forget key).Forgotten key :=
  fun _ member => (Marks.mem_forget.mp member).1 rfl

theorem Marks.Forgotten.forget (forgotten : marks.Forgotten key) (other : MemberKey) :
    (marks.forget other).Forgotten key :=
  fun ends member => forgotten ends (Marks.mem_forget.mp member).2

theorem Marks.Forgotten.sweep {provider : GatewayProvider} {entries : List (MemberKey × ℚ)}
    {names : List String} (forgotten : marks.Forgotten key) :
    (Marks.sweep provider entries names marks).2.Forgotten key := by
  induction entries generalizing names marks with
  | nil => exact forgotten
  | cons entry rest inductionHypothesis =>
    rw [Marks.sweep]
    cases marks.visit provider entry with
    | ended => exact inductionHypothesis (forgotten.forget entry.1)
    | other => exact inductionHypothesis forgotten
    | waits sig => exact forgotten
    | held => exact inductionHypothesis forgotten

/-- A sweep keeps the hold of a member if it comes to no entry of it that has ended, and else
forgets the member. -/
theorem Marks.HeldUntil.sweep {provider : GatewayProvider} {entries : List (MemberKey × ℚ)}
    {names : List String} (held : marks.HeldUntil key limit)
    (spares : ∀ entry ∈ Marks.visited provider entries marks, entry.1 = key → marks.now < entry.2) :
    (Marks.sweep provider entries names marks).2.HeldUntil key limit := by
  induction entries generalizing names marks with
  | nil => exact held
  | cons entry rest inductionHypothesis =>
    rw [Marks.sweep]
    rw [Marks.visited] at spares
    cases visited : marks.visit provider entry with
    | ended =>
      rw [visited] at spares
      refine inductionHypothesis (held.forget fun same => ?_)
        fun other member => spares other (List.mem_cons_of_mem _ member)
      exact absurd (Marks.visit_ended_iff.mp visited)
        (not_le_of_gt (spares entry List.mem_cons_self same))
    | other =>
      rw [visited] at spares
      exact inductionHypothesis held fun other member => spares other (List.mem_cons_of_mem _ member)
    | waits sig => exact held
    | held =>
      rw [visited] at spares
      exact inductionHypothesis held fun other member => spares other (List.mem_cons_of_mem _ member)

theorem Marks.forgotten_sweep {provider : GatewayProvider} {entries : List (MemberKey × ℚ)}
    {names : List String} {entry : MemberKey × ℚ}
    (member : entry ∈ Marks.visited provider entries marks) (same : entry.1 = key)
    (ended : entry.2 ≤ marks.now) :
    (Marks.sweep provider entries names marks).2.Forgotten key := by
  induction entries generalizing names marks with
  | nil => cases member
  | cons first rest inductionHypothesis =>
    rw [Marks.sweep]
    rw [Marks.visited] at member
    cases visited : marks.visit provider first with
    | ended =>
      rw [visited] at member
      rcases List.mem_cons.mp member with rfl | inRest
      · exact Marks.Forgotten.sweep (same ▸ Marks.forgotten_forget marks entry.1)
      · exact @inductionHypothesis (marks.forget first.1) names inRest ended
    | other =>
      rw [visited] at member
      rcases List.mem_cons.mp member with rfl | inRest
      · rw [Marks.visit_ended_iff.mpr ended] at visited
        cases visited
      · exact inductionHypothesis inRest ended
    | waits sig =>
      rw [visited] at member
      obtain rfl := List.mem_singleton.mp member
      rw [Marks.visit_ended_iff.mpr ended] at visited
      cases visited
    | held =>
      rw [visited] at member
      rcases List.mem_cons.mp member with rfl | inRest
      · rw [Marks.visit_ended_iff.mpr ended] at visited
        cases visited
      · exact inductionHypothesis inRest ended

/-- A sweep begins with entries of the marks as they are. -/
theorem Marks.visited_subset {provider : GatewayProvider} {entries : List (MemberKey × ℚ)}
    {entry : MemberKey × ℚ} (member : entry ∈ Marks.visited provider entries marks) :
    entry ∈ entries := by
  induction entries generalizing marks with
  | nil => cases member
  | cons first rest inductionHypothesis =>
    rw [Marks.visited] at member
    cases visited : marks.visit provider first with
    | waits sig =>
      rw [visited] at member
      exact List.mem_singleton.mp member ▸ List.mem_cons_self
    | ended | other | held =>
      rw [visited] at member
      exact (List.mem_cons.mp member).elim (fun isFirst => isFirst ▸ List.mem_cons_self)
        fun inRest => List.mem_cons_of_mem _ (inductionHypothesis inRest)

section Running

variable {Native : Type} {runtime : ProxyRuntime Native} {state : Shared}

theorem Marks.HeldUntil.congr {other : Marks} (held : marks.HeldUntil key limit)
    (same : other.exhausted = marks.exhausted) : other.HeldUntil key limit := by
  rw [Marks.HeldUntil, same]
  exact held

theorem Shared.swept_marks (tasks : List Task) (outcome : (List String ⊕ Sweep) × Marks) :
    (Shared.swept tasks outcome).marks = outcome.2 := by
  obtain ⟨names | sweep, marks⟩ := outcome <;> rfl

theorem Marks.answered_of_none {other : MemberKey} {res : Response}
    (notQuota : quotaLimit runtime res marks.now = none) :
    marks.answered runtime other res = marks := by
  rw [Marks.answered, notQuota]

theorem Marks.answered_exhausted {other : MemberKey} {res : Response} {ends : ℚ}
    (quota : quotaLimit runtime res marks.now = some ends) :
    (marks.answered runtime other res).exhausted = (marks.setExhausted other ends).exhausted := by
  rw [Marks.answered, quota]
  dsimp only
  split <;> rfl

theorem Marks.answered_now (marks : Marks) (key : MemberKey) (res : Response) :
    (marks.answered runtime key res).now = marks.now := by
  rw [Marks.answered]
  cases quotaLimit runtime res marks.now with
  | none => rfl
  | some ends =>
    dsimp only
    split <;> rfl

theorem Marks.credentialFailed_exhausted (marks : Marks) (key : MemberKey) (error : Thrown) :
    (marks.credentialFailed key error).exhausted =
      (marks.setExhausted key (marks.now + credentialHoldMs error)).exhausted := by
  rw [Marks.credentialFailed]
  split <;> rfl

theorem Marks.credentialFailed_now (marks : Marks) (key : MemberKey) (error : Thrown) :
    (marks.credentialFailed key error).now = marks.now := by
  rw [Marks.credentialFailed]
  split <;> rfl

theorem Sweep.signed_now (sweep : Sweep) (signature : Option String) (marks : Marks) :
    (sweep.signed signature marks).2.now = marks.now := by
  rw [Sweep.signed]
  split <;> exact Marks.sweep_now _ _ _ _

theorem Shared.now_le_step (event : HoldEvent) :
    state.marks.now ≤ (state.step runtime event).marks.now := by
  cases event with
  | passes time => exact le_max_left _ _
  | answered other res => exact le_of_eq (Marks.answered_now _ _ _).symm
  | failed other error => exact le_of_eq (Marks.credentialFailed_now _ _ _).symm
  | sweeps provider =>
    rw [Shared.step, Shared.swept_marks]
    exact le_of_eq (Marks.sweep_now _ _ _ _).symm
  | signed index signature =>
    rw [Shared.step]
    cases state.tasks[index]? with
    | none => exact le_refl _
    | some task =>
      cases task with
      | sweep sweep =>
        dsimp only
        rw [Shared.swept_marks]
        exact le_of_eq (Sweep.signed_now _ _ _).symm
      | hold other error => exact le_refl _

/-- A step that spares the hold keeps it. -/
theorem Marks.HeldUntil.step (held : state.marks.HeldUntil key limit)
    (before : state.marks.now < limit) {event : HoldEvent}
    (spares : event.Spares runtime key limit state) :
    (state.step runtime event).marks.HeldUntil key limit := by
  cases event with
  | passes time => exact held.congr rfl
  | answered other res =>
    rw [Shared.step]
    cases quota : quotaLimit runtime res state.marks.now with
    | none => exact held.congr (congrArg Marks.exhausted (Marks.answered_of_none quota))
    | some ends =>
      exact (held.setExhausted fun same => spares same ends quota).congr
        (Marks.answered_exhausted quota)
  | failed other error =>
    exact (held.setExhausted spares).congr (Marks.credentialFailed_exhausted _ _ _)
  | sweeps provider =>
    rw [Shared.step, Shared.swept_marks]
    refine held.sweep fun entry member same => lt_of_lt_of_le before (held.2 entry.2 ?_)
    exact same ▸ Marks.visited_subset member
  | signed index signature =>
    rw [HoldEvent.Spares] at spares
    rw [Shared.step]
    cases isTask : state.tasks[index]? with
    | none => exact held
    | some task =>
      cases task with
      | hold other error => exact held.congr rfl
      | sweep sweep =>
        dsimp only
        rw [Shared.swept_marks, Sweep.signed]
        obtain ⟨unchanged, comes⟩ := spares sweep isTask
        by_cases changed : signature ≠ sweep.sig
        · rw [if_pos changed] at comes ⊢
          exact (held.forget fun same => changed (unchanged same)).sweep comes
        · rw [if_neg changed] at comes ⊢
          exact held.sweep comes

theorem Shared.not_heldBack_of_forgotten (forgotten : state.marks.Forgotten key)
    (before : state.marks.now < limit) : ¬ state.HeldBack runtime key limit := by
  intro heldBack
  refine heldBack state.marks.now (le_refl _) before ?_
  rw [Shared.step, max_self]
  exact forgotten.eligible

/-- An entry that is the only one of its member and ends too early frees it when it ends. -/
theorem Shared.not_heldBack_of_ends {after : Marks} {ends : ℚ}
    (marked : after.exhausted = (marks.setExhausted key ends).exhausted) (early : ends < limit)
    (before : after.now < limit) (tasks : List Task) :
    ¬ (⟨after, tasks⟩ : Shared).HeldBack runtime key limit := by
  intro heldBack
  refine heldBack (max after.now ends) (le_max_left _ _) (max_lt before early) ?_
  intro found member
  have isMarked : (key, found) ∈ (marks.setExhausted key ends).exhausted := marked ▸ member
  have only := Marks.eligible_setExhausted (le_refl ends) found isMarked
  exact le_trans only (le_trans (le_max_right after.now ends) (le_max_right _ _))

/-- A step that does not spare the hold lets the member be chosen too early. -/
theorem HoldEvent.spares_of_heldBack (before : state.marks.now < limit) {event : HoldEvent}
    (heldBack : (state.step runtime event).HeldBack runtime key limit) :
    event.Spares runtime key limit state := by
  cases event with
  | passes time => trivial
  | sweeps provider => trivial
  | answered other res =>
    rintro rfl ends quota
    by_contra early
    refine Shared.not_heldBack_of_ends (Marks.answered_exhausted quota) (lt_of_not_ge early) ?_ _
      heldBack
    rw [Marks.answered_now]
    exact before
  | failed other error =>
    rintro rfl
    by_contra early
    refine Shared.not_heldBack_of_ends (Marks.credentialFailed_exhausted _ _ _)
      (lt_of_not_ge early) ?_ _ heldBack
    rw [Marks.credentialFailed_now]
    exact before
  | signed index signature =>
    intro sweep isTask
    have after : (state.step runtime (.signed index signature)).marks =
        (sweep.signed signature state.marks).2 := by
      rw [Shared.step, isTask]
      exact Shared.swept_marks _ _
    have unforgotten : ¬ (sweep.signed signature state.marks).2.Forgotten key := by
      intro forgotten
      refine Shared.not_heldBack_of_forgotten (after ▸ forgotten) ?_ heldBack
      rw [after, Sweep.signed_now]
      exact before
    rw [Sweep.signed] at unforgotten
    constructor
    · intro same
      by_contra changed
      rw [if_pos changed] at unforgotten
      exact unforgotten (Marks.Forgotten.sweep (same ▸ Marks.forgotten_forget _ _))
    · intro entry member same
      by_contra notLater
      have ended : entry.2 ≤ state.marks.now := le_of_not_gt notLater
      by_cases changed : signature ≠ sweep.sig
      · rw [if_pos changed] at member unforgotten
        exact unforgotten (Marks.forgotten_sweep member same ended)
      · rw [if_neg changed] at member unforgotten
        exact unforgotten (Marks.forgotten_sweep member same ended)

theorem Shared.heldBack_of_held
    (held : state.marks.now < limit → state.marks.HeldUntil key limit) :
    state.HeldBack runtime key limit := by
  intro time later before
  have now : state.marks.now < limit := lt_of_le_of_lt later before
  have kept : (state.step runtime (.passes time)).marks.HeldUntil key limit :=
    (held now).congr rfl
  exact kept.not_eligible (max_lt now before)

/-- In a run that begins with the member held, every step spares the hold exactly if the member is
held back after each of them. -/
theorem Shared.spared_iff (events : List HoldEvent)
    (held : state.marks.now < limit → state.marks.HeldUntil key limit) :
    state.Spared runtime key limit events ↔
      ∀ done, done <+: events → (state.run runtime done).HeldBack runtime key limit := by
  induction events generalizing state with
  | nil =>
    refine ⟨fun _ done isPrefix => ?_, fun _ => trivial⟩
    rw [List.prefix_nil.mp isPrefix]
    exact Shared.heldBack_of_held held
  | cons event rest inductionHypothesis =>
    have next (spares : state.marks.now < limit → event.Spares runtime key limit state)
        (before : (state.step runtime event).marks.now < limit) :
        (state.step runtime event).marks.HeldUntil key limit := by
      have now := lt_of_le_of_lt (Shared.now_le_step event) before
      exact (held now).step now (spares now)
    constructor
    · rintro ⟨spares, restSpared⟩ done isPrefix
      cases done with
      | nil => exact Shared.heldBack_of_held held
      | cons first done =>
        obtain ⟨rfl, ofRest⟩ := List.cons_prefix_cons.mp isPrefix
        exact (inductionHypothesis (next spares)).mp restSpared done ofRest
    · intro heldBack
      have spares (before : state.marks.now < limit) : event.Spares runtime key limit state :=
        HoldEvent.spares_of_heldBack before
          (heldBack [event] (List.cons_prefix_cons.mpr ⟨rfl, List.nil_prefix⟩))
      refine ⟨spares, (inductionHypothesis (next spares)).mpr fun done isPrefix => ?_⟩
      exact heldBack (event :: done) (List.cons_prefix_cons.mpr ⟨rfl, isPrefix⟩)

end Running

end Lasting

section ProvenHold

variable {Native : Type} (runtime : ProxyRuntime Native)

/-- After a rate limit that proves that the quota is used up, the member is held back until the
proven reset through every step of a run exactly if each of them spares the hold. -/
theorem provenHold_lasts_iff (key : MemberKey) (res : Response) (before : Shared)
    (events : List HoldEvent) (limited : res.status = 429)
    (proves : provesSubscriptionExhaustion runtime res.headers = true) :
    (∀ done, done <+: events →
        ((before.step runtime (.answered key res)).run runtime done).HeldBack runtime key
          (exhaustedUntil runtime res.headers before.marks.now)) ↔
      (before.step runtime (.answered key res)).Spared runtime key
        (exhaustedUntil runtime res.headers before.marks.now) events := by
  have quota : quotaLimit runtime res before.marks.now =
      some (exhaustedUntil runtime res.headers before.marks.now) := by
    have proven : provesQuota runtime res = true := by simp [provesQuota, limited, proves]
    rw [quotaLimit, if_pos proven]
  refine (Shared.spared_iff events fun _ => ?_).symm
  exact (Marks.heldUntil_setExhausted before.marks key _).congr (Marks.answered_exhausted quota)

end ProvenHold

/-! ### A hold that is shortened -/

namespace Shortened

def runtime : ProxyRuntime Unit where
  parse := fun _ => none
  toLowerCase := List.map Char.toLower
  number := fun text => if text = "3600" then some 3600 else none
  dateParse := fun _ => none
  requestModel := fun _ => none
  nativeLimitResponse := fun _ _ _ _ => none

def member : MemberKey := (.claude, "work")

/-- The subscription is used up until 3600 s. -/
def proven : Response :=
  ⟨429, [("anthropic-ratelimit-unified-status", "rejected"),
    ("anthropic-ratelimit-unified-reset", "3600")], true⟩

/-- A rate limit that passes, of a request sent earlier. -/
def burst : Response := ⟨429, [], true⟩

def idle : Shared := ⟨⟨0, [], []⟩, []⟩

end Shortened

/-- A burst that is answered after the proof frees the member after 15 s. -/
theorem provenHold_shortened :
    provesSubscriptionExhaustion Shortened.runtime Shortened.proven.headers = true ∧
      exhaustedUntil Shortened.runtime Shortened.proven.headers 0 = 3600000 ∧
      (Shortened.idle.run Shortened.runtime
        [.answered Shortened.member Shortened.proven, .passes 1000]).marks.exhausted =
          [(Shortened.member, 3600000)] ∧
      (Shortened.idle.run Shortened.runtime
        [.answered Shortened.member Shortened.proven, .passes 1000,
          .answered Shortened.member Shortened.burst, .passes 16000]).marks.now = 16000 ∧
      (Shortened.idle.run Shortened.runtime
        [.answered Shortened.member Shortened.proven, .passes 1000,
          .answered Shortened.member Shortened.burst, .passes 16000]).marks.Eligible
            Shortened.member := by
  decide +kernel

/-- A later burst of another member spares the hold. -/
theorem provenHold_lasts_iff_work :
    Shortened.burst.status = 429 ∧
      (∀ done, done <+: [HoldEvent.answered (.claude, "home") Shortened.burst] →
        ((Shortened.idle.step Shortened.runtime (.answered Shortened.member
          Shortened.proven)).run Shortened.runtime done).HeldBack Shortened.runtime
            Shortened.member (exhaustedUntil Shortened.runtime Shortened.proven.headers 0)) := by
  refine ⟨rfl, (provenHold_lasts_iff Shortened.runtime Shortened.member Shortened.proven
    Shortened.idle [.answered (.claude, "home") Shortened.burst] rfl (by decide +kernel)).mpr ?_⟩
  exact ⟨fun _ same => absurd same (by decide), trivial⟩

end AiSwitcher.Gateway.Proxy
