/-
This file embeds the credential merge of `src/live/inbox.ts`: when a grant was minted and
when it expires, which objects are grants, and the merge of an incoming credential file
into the drive's. It proves on which pairs of files the merge keeps every grant of the
drive that no later grant replaces.

Two objects that are grants are compared by one time each, the mint time or else the
expiry, so a mint time may be compared with an expiry. And where the drive holds a grant
or an object with grants inside, an incoming value that is no object replaces it.
-/

import AiSwitcher.Identities.Pool.Adapter
import AiSwitcher.Library.DeepEqual
import AiSwitcher.Library.Pattern
import Mathlib.Algebra.Order.Floor.Ring
import Mathlib.Data.Rat.Floor

namespace AiSwitcher.Live

open JavaScript

variable (runtime : TokenRuntime)

/-! ### Times of a grant -/

/-- `/Ms$|Millis/i.test(key)`, on the lower-case key. -/
def isMilliseconds (key : String) : Bool :=
  let lower := String.ofList (key.toList.map Char.toLower)
  endsWith lower "ms" || (Pattern.all
    [.many (.character fun _ => true), .exactly "millis", .many (.character fun _ => true)]).test lower

/-- Unix seconds of a stamp: a date, or a number of seconds or milliseconds. -/
def seconds (key : String) : Json → Option ℚ
  | .str text => (runtime.dateParse text).map fun milliseconds => milliseconds / 1000
  | .num (.finite value) =>
      some (if isMilliseconds key || 100000000000 < value then value / 1000 else value)
  | _ => none

/-- The stamps of some members. -/
def stampsAt (keys : List String) (grant : Object) : List ℚ :=
  keys.filterMap fun key => (grant.get key).bind (seconds runtime key)

/-- `claims?.iat` of the tokens that are JWTs, where it is a finite number. -/
def jwtStamps (grant : Object) : List ℚ :=
  ["access_token", "accessToken", "access", "token"].filterMap fun key => do
    let token ← (grant.get key).bind Json.asString?
    let claims ← runtime.decodeJwtPayload token
    match claims.get "iat" with
    | some (.num (.finite iat)) => some iat
    | _ => none

/-- `Math.max(...stamps)`, if there is a stamp. -/
def newest : List ℚ → Option ℚ
  | [] => none
  | stamp :: stamps => some (stamps.foldl max stamp)

mutual

/-- The newest of an object's own stamps and of those in the two members that nest a grant. -/
def newestStamp (own : Object → List ℚ) : Json → Option ℚ
  | .obj grant => newest (own grant ++ (nestedStamp own "claudeAiOauth" grant).toList ++
      (nestedStamp own "tokens" grant).toList)
  | _ => none

def nestedStamp (own : Object → List ℚ) (name : String) : List (String × Json) → Option ℚ
  | [] => none
  | (key, value) :: members =>
      if key = name then newestStamp own value else nestedStamp own name members

end

def grantMintedTime (grant : Object) : Option ℚ :=
  newestStamp
    (fun grant => stampsAt runtime ["minted_at", "mintedAt", "last_refresh", "lastRefresh",
      "last_refreshed_at", "refreshed_at", "updated_at"] grant ++ jwtStamps runtime grant)
    (.obj grant)

def grantExpiryTime (grant : Object) : Option ℚ :=
  newestStamp
    (stampsAt runtime ["expires_at", "expiresAt", "expires", "expiry", "expiry_date"])
    (.obj grant)

/-- The two times of a grant. -/
structure GrantTimes where
  minted : Option Number
  expiry : Option Number

def secondsFromMs : Number → Number
  | .finite value => .finite (if value < 10000000000 then value else ⌊value / 1000⌋)
  | infinite => infinite

/-- The times `readPiEntry` finds in a file with this one entry. -/
def piTimes (entry : Object) : GrantTimes :=
  let read : Object := entry.map fun field => (field.1, field.2.written)
  match (read.get "access").bind usableToken with
  | none => ⟨none, none⟩
  | some token =>
      ⟨((runtime.decodeJwtPayload token).bind fun claims => claims.get "iat").bind Json.asNumber?,
        ((read.get "expires").bind Json.asNumber?).map secondsFromMs⟩

/-- The times `mergeAuth` goes by: those of the Pi reader for an OAuth entry of a provider. -/
def grantTimes (provider : Option String) (grant : Object) : GrantTimes :=
  if provider.isSome ∧ grant.get "type" = some (.str "oauth") then piTimes runtime grant
  else ⟨(grantMintedTime runtime grant).map .finite, (grantExpiryTime runtime grant).map .finite⟩

/-- `minted ?? expiry ?? -1`. -/
def GrantTimes.time (times : GrantTimes) : Number :=
  (times.minted.or times.expiry).getD (.finite (-1))

/-! ### The merge -/

def containsGrant (value : Object) : Bool :=
  ["access_token", "accessToken", "access", "refresh_token", "refreshToken", "refresh", "token",
    "apiKey", "api_key"].any value.hasKey

def isAtomicGrant (value : Object) : Bool :=
  containsGrant value || ["tokens", "claudeAiOauth"].any fun key =>
    ((value.get key).bind Json.asObject?).any containsGrant

mutual

/-- `provider` is the key the two values stand under. The source passes none where one of them
is no object; it is not read there. -/
def mergeAuth (provider : Option String) (current : Json) : Json → Json
  | .obj new =>
      match current with
      | .obj old =>
          if isAtomicGrant old && isAtomicGrant new then
            if (grantTimes runtime provider old).time.lt (grantTimes runtime provider new).time then
              .obj new
            else .obj old
          else .obj (Members.spread old (mergeMembers old new))
      | _ => .obj new
  | incoming => incoming

def mergeMembers (old : Object) : List (String × Json) → List (String × Json)
  | [] => []
  | (key, value) :: members =>
      (key, match old.get key with
        | some oldValue => mergeAuth (some key) oldValue value
        | none => value) :: mergeMembers old members

end

/-! ### What the merge does member by member -/

theorem get_mergeMembers (old new : Object) (key : String) :
    Members.get (mergeMembers runtime old new) key =
      (new.get key).map fun value => match old.get key with
        | some oldValue => mergeAuth runtime (some key) oldValue value
        | none => value := by
  induction new with
  | nil => rw [mergeMembers]; rfl
  | cons member members inductionHypothesis =>
    rw [mergeMembers, Members.get_cons, Members.get_cons, inductionHypothesis]
    by_cases same : member.1 = key
    · rw [if_pos same, if_pos same, Option.map_some, same]
    · rw [if_neg same, if_neg same]

theorem mergeAuth_atomic (provider : Option String) {old new : Object}
    (atomic : isAtomicGrant old = true ∧ isAtomicGrant new = true) :
    mergeAuth runtime provider (.obj old) (.obj new) =
      if (grantTimes runtime provider old).time.lt (grantTimes runtime provider new).time then
        .obj new
      else .obj old := by
  rw [mergeAuth, atomic.1, atomic.2]
  rfl

theorem mergeAuth_members (provider : Option String) {old new : Object}
    (members : ¬ (isAtomicGrant old = true ∧ isAtomicGrant new = true)) :
    mergeAuth runtime provider (.obj old) (.obj new) =
      .obj (Members.spread old (mergeMembers runtime old new)) := by
  rw [mergeAuth, if_neg (mt Bool.and_eq_true_iff.mp members)]

/-- A value that is no object replaces what it meets, and is replaced by what it meets. -/
theorem mergeAuth_of_not_object (provider : Option String) {current incoming : Json}
    (plain : ∀ old new, ¬ (current = .obj old ∧ incoming = .obj new)) :
    mergeAuth runtime provider current incoming = incoming := by
  cases incoming with
  | obj new =>
    cases current with
    | obj old => exact absurd ⟨rfl, rfl⟩ (plain old new)
    | _ => rfl
  | _ => rfl

/-- Where both are read, a member of a merged container is the merged member. -/
theorem get_merged (old new : Object) (key : String) :
    (Members.spread old (mergeMembers runtime old new)).get key =
      match new.get key, old.get key with
      | some value, some oldValue => some (mergeAuth runtime (some key) oldValue value)
      | some value, none => some value
      | none, oldValue => oldValue := by
  rw [Members.get_spread, get_mergeMembers]
  cases new.get key <;> cases old.get key <;> rfl

/-! ### Grants and their places -/

/-- The value at a path of keys. -/
def valueAt : Json → List String → Option Json
  | value, [] => some value
  | .obj members, key :: path =>
      match Members.get members key with
      | some value => valueAt value path
      | none => none
  | _, _ :: _ => none

/-- A grant in a file: the outermost objects on a path that are grants, each with the key it
stands under. -/
inductive HoldsGrant : Option String → Json → List String → Option String → Object → Prop
  | here {provider grant} (atomic : isAtomicGrant grant = true) :
      HoldsGrant provider (.obj grant) [] provider grant
  | within {provider members key value path place grant}
      (container : isAtomicGrant members = false) (member : members.get key = some value)
      (held : HoldsGrant (some key) value path place grant) :
      HoldsGrant provider (.obj members) (key :: path) place grant

/-- A grant was issued later than another: by mint time when both carry one, otherwise by expiry
when both carry one. -/
def issuedLater (newer older : GrantTimes) : Bool :=
  match newer.minted, older.minted with
  | some newer, some older => older.lt newer
  | _, _ =>
    match newer.expiry, older.expiry with
    | some newer, some older => older.lt newer
    | _, _ => false

/-- A grant at its place in a file: it is still there, or a grant of the incoming file that was
issued later has replaced it. -/
def GrantSafe (merged incoming : Json) (path : List String) (place : Option String)
    (grant : Object) : Prop :=
  (valueAt merged path).map Json.asWritten = some (Json.obj grant).asWritten ∨
    ∃ newer : Object, valueAt incoming path = some (.obj newer) ∧ isAtomicGrant newer = true ∧
      issuedLater (grantTimes runtime place newer) (grantTimes runtime place grant) = true ∧
      (valueAt merged path).map Json.asWritten = some (Json.obj newer).asWritten

/-- Every grant of the current file is safe in the merged one. -/
def NeverLoses (provider : Option String) (merged current incoming : Json) : Prop :=
  ∀ path place grant, HoldsGrant provider current path place grant →
    GrantSafe runtime merged incoming path place grant

/-! ### When the merge is safe -/

/-- Merging changes nothing: equal values, grants of which the incoming one is not newer, and
objects whose every incoming member changes nothing in the member it meets. -/
inductive Unchanged : Option String → Json → Json → Prop
  | plain {provider current incoming}
      (plain : ∀ old new, ¬ (current = .obj old ∧ incoming = .obj new))
      (same : current.asWritten = incoming.asWritten) : Unchanged provider current incoming
  | grants {provider old new} (atomic : isAtomicGrant old = true ∧ isAtomicGrant new = true)
      (kept : (grantTimes runtime provider old).time.lt (grantTimes runtime provider new).time =
          true → (Json.obj old).asWritten = (Json.obj new).asWritten) :
      Unchanged provider (.obj old) (.obj new)
  | members {provider old new}
      (members : ¬ (isAtomicGrant old = true ∧ isAtomicGrant new = true))
      (present : ∀ key value, Members.get new key = some value → (Members.get old key).isSome = true)
      (each : ∀ key oldValue value, Members.get old key = some oldValue →
        Members.get new key = some value → Unchanged (some key) oldValue value) :
      Unchanged provider (.obj old) (.obj new)

/-- The merge keeps the grants: the current value has none; two grants meet and the incoming one
is not newer by the times the merge compares, or was issued later; a grant meets an object that
is none and changes nothing in it; or the members that meet are mergeable. -/
inductive Mergeable : Option String → Json → Json → Prop
  | noGrant {provider current incoming}
      (none : ∀ path place grant, ¬ HoldsGrant provider current path place grant) :
      Mergeable provider current incoming
  | grants {provider old new} (atomic : isAtomicGrant old = true ∧ isAtomicGrant new = true)
      (clear : (grantTimes runtime provider old).time.lt (grantTimes runtime provider new).time =
          true → issuedLater (grantTimes runtime provider new) (grantTimes runtime provider old) =
            true ∨ (Json.obj old).asWritten = (Json.obj new).asWritten) :
      Mergeable provider (.obj old) (.obj new)
  | noIncomingGrant {provider old new} (atomic : isAtomicGrant old = true)
      (plain : isAtomicGrant new = false) (same : Unchanged runtime provider (.obj old) (.obj new)) :
      Mergeable provider (.obj old) (.obj new)
  | members {provider old new} (container : isAtomicGrant old = false)
      (each : ∀ key oldValue value, Members.get old key = some oldValue →
        Members.get new key = some value → Mergeable (some key) oldValue value) :
      Mergeable provider (.obj old) (.obj new)

/-! ### The merge is safe exactly then -/

theorem sizeOf_get_lt {members : Object} {key : String} {value : Json}
    (member : members.get key = some value) : sizeOf value < sizeOf (Json.obj members) := by
  have small : sizeOf value < sizeOf members := by
    induction members with
    | nil => cases member
    | cons field members inductionHypothesis =>
      rw [Members.get_cons] at member
      by_cases same : field.1 = key
      · rw [if_pos same] at member
        cases member
        obtain ⟨name, value⟩ := field
        simp only [List.cons.sizeOf_spec, Prod.mk.sizeOf_spec]
        omega
      · rw [if_neg same] at member
        have smaller := inductionHypothesis member
        simp only [List.cons.sizeOf_spec]
        omega
  rw [Json.obj.sizeOf_spec]
  omega

/-- The merge returns the current value exactly when nothing changes. -/
theorem asWritten_mergeAuth_eq_iff (provider : Option String) (current incoming : Json) :
    (mergeAuth runtime provider current incoming).asWritten = current.asWritten ↔
      Unchanged runtime provider current incoming := by
  by_cases plain : ∀ old new, ¬ (current = .obj old ∧ incoming = .obj new)
  · rw [mergeAuth_of_not_object runtime provider plain]
    refine ⟨fun same => .plain plain same.symm, fun unchanged => ?_⟩
    cases unchanged with
    | plain _ same => exact same.symm
    | grants => exact absurd ⟨rfl, rfl⟩ (plain _ _)
    | members => exact absurd ⟨rfl, rfl⟩ (plain _ _)
  push Not at plain
  obtain ⟨old, new, rfl, rfl⟩ := plain
  by_cases atomic : isAtomicGrant old = true ∧ isAtomicGrant new = true
  · rw [mergeAuth_atomic runtime provider atomic]
    constructor
    · intro same
      refine .grants atomic fun newer => ?_
      rw [if_pos newer] at same
      exact same.symm
    · intro unchanged
      cases unchanged with
      | plain plain => exact absurd ⟨rfl, rfl⟩ (plain _ _)
      | members members => exact absurd atomic members
      | grants _ kept =>
        split
        next newer => exact (kept newer).symm
        next => rfl
  rw [mergeAuth_members runtime provider atomic, Json.asWritten_obj_eq_iff]
  have eachMember : ∀ key oldValue value, Members.get old key = some oldValue →
      Members.get new key = some value →
      ((mergeAuth runtime (some key) oldValue value).asWritten = oldValue.asWritten ↔
        Unchanged runtime (some key) oldValue value) := fun key oldValue value _ member =>
    have := sizeOf_get_lt member
    asWritten_mergeAuth_eq_iff (some key) oldValue value
  constructor
  · intro same
    refine .members atomic (fun key value member => ?_) fun key oldValue value held member => ?_
    · have atKey := same key
      rw [get_merged, member] at atKey
      cases held : Members.get old key with
      | some oldValue => rfl
      | none =>
        rw [held] at atKey
        cases atKey
    · have atKey := same key
      rw [get_merged, member, held] at atKey
      exact (eachMember key oldValue value held member).mp (Option.some.inj atKey)
  · intro unchanged key
    cases unchanged with
    | plain plain => exact absurd ⟨rfl, rfl⟩ (plain _ _)
    | grants atomic' => exact absurd atomic' atomic
    | members _ present each =>
      rw [get_merged]
      cases member : Members.get new key with
      | none => cases Members.get old key <;> rfl
      | some value =>
        cases held : Members.get old key with
        | none =>
          have isThere := present key value member
          rw [held] at isThere
          cases isThere
        | some oldValue =>
          exact congrArg some ((eachMember key oldValue value held member).mpr
            (each key oldValue value held member))
termination_by sizeOf incoming

theorem not_holdsGrant_of_not_object {provider : Option String} {current : Json}
    (plain : ∀ old, current ≠ .obj old) (path : List String) (place : Option String)
    (grant : Object) : ¬ HoldsGrant provider current path place grant := by
  rintro (_ | _)
  · exact plain _ rfl
  · exact plain _ rfl

theorem valueAt_of_holdsGrant {provider place : Option String} {current : Json}
    {path : List String} {grant : Object} (held : HoldsGrant provider current path place grant) :
    valueAt current path = some (.obj grant) := by
  induction held with
  | here => rfl
  | within _ member _ inductionHypothesis => rw [valueAt, member]; exact inductionHypothesis

/-- A grant is the only one of its own file. -/
theorem holdsGrant_atomic_iff {provider : Option String} {old : Object}
    (atomic : isAtomicGrant old = true) {path : List String} {place : Option String}
    {grant : Object} :
    HoldsGrant provider (.obj old) path place grant ↔
      path = [] ∧ place = provider ∧ grant = old := by
  constructor
  · rintro (_ | container)
    · exact ⟨rfl, rfl, rfl⟩
    · exact absurd (atomic.symm.trans container) Bool.true_eq_false.mp
  · rintro ⟨rfl, rfl, rfl⟩
    exact .here atomic

theorem holdsGrant_container_iff {provider : Option String} {members : Object}
    (container : isAtomicGrant members = false) {path : List String} {place : Option String}
    {grant : Object} :
    HoldsGrant provider (.obj members) path place grant ↔
      ∃ key value rest, path = key :: rest ∧ Members.get members key = some value ∧
        HoldsGrant (some key) value rest place grant := by
  constructor
  · intro held
    cases held with
    | here atomic => exact absurd (atomic.symm.trans container) Bool.true_eq_false.mp
    | within _ member held => exact ⟨_, _, _, rfl, member, held⟩
  · rintro ⟨key, value, rest, rfl, member, held⟩
    exact .within container member held

/-- An incoming value that is no object leaves no grant in place. -/
theorem not_grantSafe_of_not_object {incoming : Json} (plain : ∀ new, incoming ≠ .obj new)
    (path : List String) (place : Option String) (grant : Object) :
    ¬ GrantSafe runtime incoming incoming path place grant := by
  have nothing : ∀ value, valueAt incoming path = some value → ∀ own, value.asWritten ≠ (Json.obj own).asWritten := by
    intro value found own same
    cases path with
    | nil =>
      cases incoming with
      | obj new => exact plain new rfl
      | num number =>
        cases Option.some.inj found
        cases number <;> cases same
      | _ => cases Option.some.inj found; cases same
    | cons key path =>
      cases incoming with
      | obj new => exact plain new rfl
      | _ => cases found
  rintro (kept | ⟨newer, found, -⟩)
  · obtain ⟨value, found, same⟩ := Option.map_eq_some_iff.mp kept
    exact nothing value found grant same
  · exact nothing _ found newer rfl

theorem neverLoses_atomic_iff (provider : Option String) {old new : Object}
    (atomic : isAtomicGrant old = true) :
    NeverLoses runtime provider (mergeAuth runtime provider (.obj old) (.obj new)) (.obj old)
        (.obj new) ↔
      Mergeable runtime provider (.obj old) (.obj new) := by
  have onlyOne : NeverLoses runtime provider (mergeAuth runtime provider (.obj old) (.obj new))
      (.obj old) (.obj new) ↔
        GrantSafe runtime (mergeAuth runtime provider (.obj old) (.obj new)) (.obj new) [] provider
          old := by
    constructor
    · exact fun safe => safe [] provider old (.here atomic)
    · intro safe path place grant held
      obtain ⟨rfl, rfl, rfl⟩ := (holdsGrant_atomic_iff atomic).mp held
      exact safe
  rw [onlyOne]
  have isGrant : ¬ ∀ path place grant, ¬ HoldsGrant provider (.obj old) path place grant :=
    fun none => none [] provider old (.here atomic)
  cases incomingAtomic : isAtomicGrant new with
  | true =>
    have both := And.intro atomic incomingAtomic
    constructor
    · intro safe
      refine .grants both fun newer => ?_
      unfold GrantSafe at safe
      rw [mergeAuth_atomic runtime provider both, if_pos newer] at safe
      obtain kept | ⟨_, found, -, later, -⟩ := safe
      · exact .inr (Option.some.inj kept).symm
      · cases found
        exact .inl later
    · intro mergeable
      unfold GrantSafe
      rw [mergeAuth_atomic runtime provider both]
      cases mergeable with
      | noGrant none => exact absurd none isGrant
      | noIncomingGrant _ plain => exact absurd (incomingAtomic.symm.trans plain) Bool.true_eq_false.mp
      | members container => exact absurd (atomic.symm.trans container) Bool.true_eq_false.mp
      | grants _ clear =>
        split
        next newer =>
          obtain later | same := clear newer
          · exact .inr ⟨new, rfl, incomingAtomic, later, rfl⟩
          · exact .inl (congrArg some same.symm)
        next => exact .inl rfl
  | false =>
    have unchanged := asWritten_mergeAuth_eq_iff runtime provider (.obj old) (.obj new)
    constructor
    · rintro (kept | ⟨newer, found, isNew, -⟩)
      · exact .noIncomingGrant atomic incomingAtomic (unchanged.mp (Option.some.inj kept))
      · cases found
        exact absurd (isNew.symm.trans incomingAtomic) Bool.true_eq_false.mp
    · intro mergeable
      cases mergeable with
      | noGrant none => exact absurd none isGrant
      | grants both => exact absurd (both.2.symm.trans incomingAtomic) Bool.true_eq_false.mp
      | members container => exact absurd (atomic.symm.trans container) Bool.true_eq_false.mp
      | noIncomingGrant _ _ same => exact .inl (congrArg some (unchanged.mpr same))

/-- What a path into a merged container leads to. -/
theorem grantSafe_members_iff {old new : Object} {key : String} {value : Json}
    (held : Members.get old key = some value) (path : List String) (place : Option String)
    (grant : Object) :
    GrantSafe runtime (.obj (Members.spread old (mergeMembers runtime old new))) (.obj new)
        (key :: path) place grant ↔
      match Members.get new key with
      | some newValue =>
          GrantSafe runtime (mergeAuth runtime (some key) value newValue) newValue path place grant
      | none => (valueAt value path).map Json.asWritten = some (Json.obj grant).asWritten := by
  unfold GrantSafe
  simp only [valueAt, get_merged, held]
  cases Members.get new key with
  | some newValue => rfl
  | none => simp

theorem neverLoses_container_iff (provider : Option String) {old new : Object}
    (container : isAtomicGrant old = false)
    (eachMember : ∀ key oldValue value, Members.get old key = some oldValue →
      Members.get new key = some value →
      (NeverLoses runtime (some key) (mergeAuth runtime (some key) oldValue value) oldValue value ↔
        Mergeable runtime (some key) oldValue value)) :
    NeverLoses runtime provider (mergeAuth runtime provider (.obj old) (.obj new)) (.obj old)
        (.obj new) ↔
      Mergeable runtime provider (.obj old) (.obj new) := by
  have notBoth : ¬ (isAtomicGrant old = true ∧ isAtomicGrant new = true) := fun both =>
    absurd (both.1.symm.trans container) Bool.true_eq_false.mp
  rw [mergeAuth_members runtime provider notBoth]
  constructor
  · intro safe
    refine .members container fun key oldValue value held member => ?_
    refine (eachMember key oldValue value held member).mp fun path place grant holds => ?_
    have atPath := (grantSafe_members_iff runtime held path place grant).mp
      (safe (key :: path) place grant (.within container held holds))
    rw [member] at atPath
    exact atPath
  · intro mergeable path place grant holds
    cases mergeable with
    | noGrant none => exact absurd holds (none path place grant)
    | grants both => exact absurd both notBoth
    | noIncomingGrant isGrant => exact absurd (isGrant.symm.trans container) Bool.true_eq_false.mp
    | members _ each =>
      obtain ⟨key, oldValue, rest, rfl, held, inside⟩ :=
        (holdsGrant_container_iff container).mp holds
      refine (grantSafe_members_iff runtime held rest place grant).mpr ?_
      cases member : Members.get new key with
      | none => exact congrArg (Option.map Json.asWritten) (valueAt_of_holdsGrant inside)
      | some value =>
        exact (eachMember key oldValue value held member).mpr
          (each key oldValue value held member) rest place grant inside

/-- The merge never loses a grant exactly on the mergeable pairs. -/
theorem neverLoses_mergeAuth_iff (provider : Option String) (current incoming : Json) :
    NeverLoses runtime provider (mergeAuth runtime provider current incoming) current incoming ↔
      Mergeable runtime provider current incoming := by
  by_cases noObject : ∀ old, current ≠ .obj old
  · exact ⟨fun _ => .noGrant (not_holdsGrant_of_not_object noObject),
      fun _ path place grant holds =>
        absurd holds (not_holdsGrant_of_not_object noObject path place grant)⟩
  by_cases plain : ∀ new, incoming ≠ .obj new
  · rw [mergeAuth_of_not_object runtime provider fun _ new same => plain new same.2]
    constructor
    · exact fun safe => .noGrant fun path place grant holds =>
        not_grantSafe_of_not_object runtime plain path place grant (safe path place grant holds)
    · intro mergeable path place grant holds
      cases mergeable with
      | noGrant none => exact absurd holds (none path place grant)
      | grants => exact absurd rfl (plain _)
      | noIncomingGrant => exact absurd rfl (plain _)
      | members => exact absurd rfl (plain _)
  push Not at noObject plain
  obtain ⟨old, rfl⟩ := noObject
  obtain ⟨new, rfl⟩ := plain
  cases atomic : isAtomicGrant old with
  | true => exact neverLoses_atomic_iff runtime provider atomic
  | false =>
    refine neverLoses_container_iff runtime provider atomic fun key oldValue value _ member => ?_
    have := sizeOf_get_lt member
    exact neverLoses_mergeAuth_iff (some key) oldValue value
termination_by sizeOf incoming

end AiSwitcher.Live
