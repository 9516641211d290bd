/-
This file proves that retirement follows the newest event: however registries are
merged between hosts, a host's copy of an identity has the members that the newest of
the retire and unretire events that reached it has set, and never some of one event
and some of another.
-/

import AiSwitcher.Sync.Registry

namespace AiSwitcher

open JavaScript

/-! ### The three members -/

/-- The members that retiring and restoring set. -/
structure RetirementFields where
  retired : Option Json
  retiredAt : Option Json
  unretiredAt : Option Json
  deriving DecidableEq

def retirementOf (identity : Object) : RetirementFields :=
  ⟨identity.get "retired", identity.get "retiredAt", identity.get "unretiredAt"⟩

namespace RetirementFields

variable (runtime : Runtime)

/-- The newest event that the members tell of. -/
def lastMs (fields : RetirementFields) : Option ℤ :=
  match (fields.retiredAt.bind Json.asString?).bind runtime.dateParse,
    (fields.unretiredAt.bind Json.asString?).bind runtime.dateParse with
  | some retired, some unretired => some (max retired unretired)
  | some retired, none => some retired
  | none, unretired => unretired

/-- What a merge makes of the members of both sides. -/
def merge (primary secondary : RetirementFields) : RetirementFields :=
  match primary.lastMs runtime, secondary.lastMs runtime with
  | none, none => ⟨primary.retired.or secondary.retired, primary.retiredAt.or secondary.retiredAt,
      primary.unretiredAt.or secondary.unretiredAt⟩
  | some primaryMs, some secondaryMs => if primaryMs < secondaryMs then secondary else primary
  | none, some _ => secondary
  | some _, none => primary

/-- The members as a file has them after it was written. -/
def written (fields : RetirementFields) : RetirementFields :=
  ⟨fields.retired.map Json.written, fields.retiredAt.map Json.written,
    fields.unretiredAt.map Json.written⟩

end RetirementFields

theorem lastRetirementEventMs_eq (runtime : Runtime) (identity : Object) :
    lastRetirementEventMs runtime identity = (retirementOf identity).lastMs runtime := rfl

theorem retirementOf_mergeIdentity (runtime : Runtime) (primary secondary : Object) :
    retirementOf (mergeIdentity runtime primary secondary) =
      (retirementOf primary).merge runtime (retirementOf secondary) := by
  have member : ∀ key, key ∈ ["retired", "retiredAt", "unretiredAt"] → _ :=
    get_mergeIdentity_of_retirement runtime primary secondary
  rw [retirementOf, member "retired" (by decide), member "retiredAt" (by decide),
    member "unretiredAt" (by decide)]
  unfold RetirementFields.merge retirementWinner
  rw [← lastRetirementEventMs_eq, ← lastRetirementEventMs_eq]
  cases lastRetirementEventMs runtime primary with
  | none => cases lastRetirementEventMs runtime secondary <;> rfl
  | some primaryMs =>
    cases lastRetirementEventMs runtime secondary with
    | none => rfl
    | some secondaryMs =>
      dsimp only
      split_ifs <;> rfl

/-! ### Events -/

inductive RetirementKind where
  | retire
  | unretire
  deriving DecidableEq

/-- A call that changed an identity, with the text of its `now.toISOString()`. -/
structure RetirementEvent (runtime : Runtime) where
  kind : RetirementKind
  now : String
  ms : ℤ
  dated : runtime.dateParse now = some ms

section Gossip

variable {runtime : Runtime}

/-- The members that the event sets. -/
def RetirementEvent.fields (event : RetirementEvent runtime) : RetirementFields :=
  match event.kind with
  | .retire => ⟨some (.bool true), some (.str event.now), none⟩
  | .unretire => ⟨none, none, some (.str event.now)⟩

theorem RetirementEvent.lastMs_fields (event : RetirementEvent runtime) :
    event.fields.lastMs runtime = some event.ms := by
  obtain ⟨kind, now, ms, dated⟩ := event
  cases kind with
  | retire =>
    show (match runtime.dateParse now, (none : Option ℤ) with
      | some retired, some unretired => some (max retired unretired)
      | some retired, none => some retired
      | none, unretired => unretired) = some ms
    rw [dated]
  | unretire => exact dated

theorem RetirementEvent.written_fields (event : RetirementEvent runtime) :
    event.fields.written = event.fields := by
  obtain ⟨kind, now, ms, dated⟩ := event
  cases kind <;> rfl

/-! ### The newest event -/

/-- The members are those of a newest event, or as they were from the start when there is none. -/
def FollowNewest (initial : RetirementFields) (events : List (RetirementEvent runtime))
    (fields : RetirementFields) : Prop :=
  (events = [] ∧ fields = initial) ∨
    ∃ newest ∈ events, (∀ event ∈ events, event.ms ≤ newest.ms) ∧ fields = newest.fields

/-- No event is older than what the members told of from the start. -/
def AllLater (initial : RetirementFields) (events : List (RetirementEvent runtime)) : Prop :=
  ∀ event ∈ events, ∀ ms, initial.lastMs runtime = some ms → ms < event.ms

variable {initial first second : RetirementFields}
  {events firstEvents secondEvents : List (RetirementEvent runtime)}

/-- Only which events there are counts. -/
theorem FollowNewest.congr (follows : FollowNewest initial firstEvents first)
    (same : ∀ event, event ∈ secondEvents ↔ event ∈ firstEvents) :
    FollowNewest initial secondEvents first := by
  rcases follows with ⟨none, fields⟩ | ⟨newest, isEvent, latest, fields⟩
  · refine Or.inl ⟨List.eq_nil_iff_forall_not_mem.mpr fun event isEvent => ?_, fields⟩
    rw [same, none] at isEvent
    cases isEvent
  · exact Or.inr ⟨newest, (same newest).mpr isEvent, fun event isOther =>
      latest event ((same event).mp isOther), fields⟩

/-- An event that is later than what is recorded is the newest. -/
theorem FollowNewest.cons (follows : FollowNewest initial events first)
    (event : RetirementEvent runtime) (later : ∀ ms, first.lastMs runtime = some ms → ms < event.ms) :
    FollowNewest initial (event :: events) event.fields := by
  refine Or.inr ⟨event, List.mem_cons_self, List.forall_mem_cons.mpr ⟨le_refl _, ?_⟩, rfl⟩
  rcases follows with ⟨none, -⟩ | ⟨newest, -, latest, fields⟩
  · rw [none]
    exact fun _ isOther => nomatch isOther
  · intro other isOther
    have before := later newest.ms (fields ▸ newest.lastMs_fields)
    exact (latest other isOther).trans before.le

theorem FollowNewest.later (follows : FollowNewest initial events first)
    (allLater : AllLater initial events) {event : RetirementEvent runtime}
    (later : ∀ ms, first.lastMs runtime = some ms → ms < event.ms) :
    AllLater initial (event :: events) := by
  refine List.forall_mem_cons.mpr ⟨fun ms starts => ?_, allLater⟩
  rcases follows with ⟨-, rfl⟩ | ⟨newest, isEvent, -, fields⟩
  · exact later ms starts
  · exact (allLater newest isEvent ms starts).trans (later newest.ms (fields ▸ newest.lastMs_fields))

/-- A merge follows the newest of the events of both sides. -/
theorem FollowNewest.merge (follows : FollowNewest initial firstEvents first)
    (others : FollowNewest initial secondEvents second) (later : AllLater initial firstEvents)
    (othersLater : AllLater initial secondEvents) :
    FollowNewest initial (firstEvents ++ secondEvents) (first.merge runtime second) := by
  rcases follows with ⟨rfl, rfl⟩ | ⟨newest, isEvent, latest, rfl⟩
  · rw [List.nil_append]
    rcases others with ⟨rfl, rfl⟩ | ⟨newest, isEvent, latest, rfl⟩
    · refine Or.inl ⟨rfl, ?_⟩
      unfold RetirementFields.merge
      cases second.lastMs runtime with
      | none => simp only [Option.or_self]
      | some ms => exact if_neg (lt_irrefl ms)
    · refine Or.inr ⟨newest, isEvent, latest, ?_⟩
      unfold RetirementFields.merge
      rw [newest.lastMs_fields]
      cases starts : first.lastMs runtime with
      | none => rfl
      | some ms => exact if_pos (othersLater newest isEvent ms starts)
  · rcases others with ⟨rfl, rfl⟩ | ⟨other, isOther, otherLatest, rfl⟩
    · rw [List.append_nil]
      refine Or.inr ⟨newest, isEvent, latest, ?_⟩
      unfold RetirementFields.merge
      rw [newest.lastMs_fields]
      cases starts : second.lastMs runtime with
      | none => rfl
      | some ms => exact if_neg (later newest isEvent ms starts).not_gt
    · unfold RetirementFields.merge
      rw [newest.lastMs_fields, other.lastMs_fields]
      dsimp only
      by_cases newer : newest.ms < other.ms
      · rw [if_pos newer]
        refine Or.inr ⟨other, List.mem_append_right _ isOther, fun event isEither => ?_, rfl⟩
        rcases List.mem_append.mp isEither with isFirst | isSecond
        · exact (latest event isFirst).trans newer.le
        · exact otherLatest event isSecond
      · rw [if_neg newer]
        refine Or.inr ⟨newest, List.mem_append_left _ isEvent, fun event isEither => ?_, rfl⟩
        rcases List.mem_append.mp isEither with isFirst | isSecond
        · exact latest event isFirst
        · exact (otherLatest event isSecond).trans (not_lt.mp newer)

/-! ### Copies of an identity -/

/-- The identities listed in a registry, whether or not it passes the checks. -/
def identitiesIn (registry : Json) : List Object :=
  ((((membersOf registry).bind fun rec => rec.get "identities").bind Json.asArray?).getD []).filterMap
    membersOf

/-- A host's copy of the identity with the name. -/
def copyIn (registry : Option Json) (name : String) : Option Object :=
  registry.bind fun raw => (identitiesIn raw).find? fun identity => nameOf identity = name

theorem identitiesIn_of_parse {raw : Json} {file : IdentitiesFile}
    (parsed : parseIdentitiesFile runtime raw = .ok file) : identitiesIn raw = file.identities := by
  unfold parseIdentitiesFile at parsed
  unfold identitiesIn
  cases found : membersOf raw with
  | none => rw [found] at parsed; cases parsed
  | some rec =>
    simp only [found, ensure_bind_eq_ok] at parsed
    rw [Option.bind_some]
    cases listed : (rec.get "identities").bind Json.asArray? with
    | none => simp [listed] at parsed
    | some raws =>
      simp only [listed, bind_eq_ok, Except.ok.injEq] at parsed
      obtain ⟨-, identities, accepted, -, -, rfl⟩ := parsed
      obtain ⟨objects, -⟩ := (parseIdentities_eq_ok _ _ _ _ _).mp accepted
      rw [Option.getD_some]
      calc raws.filterMap membersOf = (raws.map membersOf).filterMap id := by
            rw [List.filterMap_map]; rfl
        _ = identities := by
            rw [objects, List.filterMap_map]
            exact List.filterMap_some

theorem identitiesIn_saveIdentitiesFile (file : IdentitiesFile) :
    identitiesIn (saveIdentitiesFile runtime file) = readBack runtime file := by
  obtain ⟨rec, members, -, identities, -⟩ := membersOf_saveIdentitiesFile runtime file
  rw [identitiesIn, members, Option.bind_some, identities]
  show ((readBack runtime file).map Json.obj).filterMap membersOf = _
  rw [List.filterMap_map]
  exact List.filterMap_some

/-- The copy in a saved registry is one of the identities that were saved. -/
theorem exists_of_copyIn_save {file : IdentitiesFile} {name : String} {copy : Object}
    (has : copyIn (some (saveIdentitiesFile runtime file)) name = some copy) :
    ∃ identity ∈ file.identities, nameOf identity = name ∧
      retirementOf copy = (retirementOf identity).written := by
  rw [copyIn, Option.bind_some, identitiesIn_saveIdentitiesFile] at has
  have named := List.find?_some has
  obtain ⟨identity, member, rfl⟩ := List.mem_map.mp (List.mem_of_find?_eq_some has)
  refine ⟨identity, member, ?_, ?_⟩
  · have same := of_decide_eq_true named
    rw [nameOf_writtenMembers, nameOf_savedIdentity] at same
    exact same
  · unfold retirementOf RetirementFields.written
    simp only [Object.get_written]
    rw [get_savedIdentity _ _ _ (by decide), get_savedIdentity _ _ _ (by decide),
      get_savedIdentity _ _ _ (by decide)]

/-- The members of an accepted identity are written as they are. -/
theorem ValidIdentity.written_retirementOf {identity : Object}
    (valid : ValidIdentity runtime identity) :
    (retirementOf identity).written = retirementOf identity := by
  have kept : ∀ (value : Option Json) (check : Json → Bool), (∀ json, check json = true →
      json.written = json) → value.all check = true → value.map Json.written = value := by
    intro value check fixed checked
    cases value with
    | none => rfl
    | some json => exact congrArg some (fixed json checked)
  have bool : ∀ json : Json, json.isBool = true → json.written = json := by
    intro json isBool
    cases json <;> first | rfl | cases isBool
  have timestamp : ∀ json : Json, isTimestamp runtime json = true → json.written = json := by
    intro json isTime
    cases json <;> first | rfl | cases isTime
  unfold RetirementFields.written retirementOf
  rw [kept _ _ bool valid.retired, kept _ _ timestamp valid.retiredAt,
    kept _ _ timestamp valid.unretiredAt]

theorem ValidFile.distinctNames {file : IdentitiesFile} (valid : ValidFile runtime file) :
    (file.identities.map nameOf).Nodup := valid.keys.2.1

/-- An identity of an accepted registry is the host's copy. -/
theorem copyIn_of_parse {raw : Json} {file : IdentitiesFile} {identity : Object}
    (parsed : parseIdentitiesFile runtime raw = .ok file) (member : identity ∈ file.identities) :
    copyIn (some raw) (nameOf identity) = some identity := by
  rw [copyIn, Option.bind_some, identitiesIn_of_parse parsed]
  have distinct := (validFile_of_parse runtime raw file parsed).distinctNames
  cases found : file.identities.find? fun other => nameOf other = nameOf identity with
  | none =>
    have missing := List.find?_eq_none.mp found identity member
    exact absurd (decide_eq_true rfl) missing
  | some other =>
    have named := List.find?_some found
    rw [eq_of_nameOf_eq distinct (List.mem_of_find?_eq_some found) member (of_decide_eq_true named)]

theorem copyIn_eq_none_of_parse {raw : Json} {file : IdentitiesFile} {name : String}
    (parsed : parseIdentitiesFile runtime raw = .ok file)
    (missing : ∀ identity ∈ file.identities, nameOf identity ≠ name) :
    copyIn (some raw) name = none := by
  rw [copyIn, Option.bind_some, identitiesIn_of_parse parsed]
  exact List.find?_eq_none.mpr fun identity member same =>
    missing identity member (of_decide_eq_true same)

/-! ### Merging registries -/

/-- A copy that a merge made of what each side has. -/
def MergedCopy (runtime : Runtime) (primary secondary : Option Object) (copy : Object) : Prop :=
  match primary, secondary with
  | some first, some second =>
      retirementOf copy = (retirementOf first).merge runtime (retirementOf second)
  | some only, none => retirementOf copy = retirementOf only
  | none, some only => retirementOf copy = retirementOf only
  | none, none => False

theorem mergedCopy_mergeFiles {primaryRaw secondaryRaw : Json} {primary secondary : IdentitiesFile}
    {name : String} {copy : Object}
    (parsedPrimary : parseIdentitiesFile runtime primaryRaw = .ok primary)
    (parsedSecondary : parseIdentitiesFile runtime secondaryRaw = .ok secondary)
    (has : copyIn (some (saveIdentitiesFile runtime (mergeFiles runtime primary secondary))) name =
      some copy) :
    MergedCopy runtime (copyIn (some primaryRaw) name) (copyIn (some secondaryRaw) name) copy := by
  have validPrimary := validFile_of_parse runtime _ _ parsedPrimary
  have validSecondary := validFile_of_parse runtime _ _ parsedSecondary
  obtain ⟨identity, member, rfl, same⟩ := exists_of_copyIn_save has
  rw [mem_mergeFiles, mem_mergeIdentities runtime _ _ validPrimary.distinctNames
    validSecondary.distinctNames] at member
  rcases member.1 with ⟨first, inPrimary, second, inSecondary, named, rfl⟩ | ⟨inPrimary, alone⟩ |
      ⟨inSecondary, alone⟩
  · have validFirst := validPrimary.identities first inPrimary
    have validSecond := validSecondary.identities second inSecondary
    rw [nameOf_mergeIdentity runtime _ _ validFirst.name, copyIn_of_parse parsedPrimary inPrimary,
      ← named, copyIn_of_parse parsedSecondary inSecondary]
    show retirementOf copy = _
    rw [same, (validFirst.merged validSecond named.symm).written_retirementOf,
      retirementOf_mergeIdentity]
  · rw [copyIn_of_parse parsedPrimary inPrimary, copyIn_eq_none_of_parse parsedSecondary alone]
    show retirementOf copy = _
    rw [same, (validPrimary.identities identity inPrimary).written_retirementOf]
  · rw [copyIn_of_parse parsedSecondary inSecondary, copyIn_eq_none_of_parse parsedPrimary alone]
    show retirementOf copy = _
    rw [same, (validSecondary.identities identity inSecondary).written_retirementOf]

/-- The copy in a merged registry is the merge of both copies, in the one order or the other. -/
theorem mergedCopy_mergeRegistryConflict {live previous : Option Json}
    {liveMtime previousMtime : ℚ} {saved : Json} {name : String} {copy : Object}
    (merged : mergeRegistryConflict runtime live previous liveMtime previousMtime = .ok (some saved))
    (has : copyIn (some saved) name = some copy) :
    MergedCopy runtime (copyIn live name) (copyIn previous name) copy ∨
      MergedCopy runtime (copyIn previous name) (copyIn live name) copy := by
  unfold mergeRegistryConflict at merged
  cases live with
  | none => cases merged
  | some live =>
    cases previous with
    | none => cases merged
    | some previous =>
      obtain ⟨liveFile, parsedLive, merged⟩ := (bind_eq_ok _ _ _).mp merged
      obtain ⟨previousFile, parsedPrevious, merged⟩ := (bind_eq_ok _ _ _).mp merged
      have written : saveIdentitiesFile runtime (mergeFiles runtime
          (bySeniority liveFile previousFile liveMtime previousMtime).1
          (bySeniority liveFile previousFile liveMtime previousMtime).2) = saved :=
        Option.some.inj (Except.ok.inj merged)
      rw [← written] at has
      unfold bySeniority at has
      split_ifs at has
      · exact Or.inl (mergedCopy_mergeFiles parsedLive parsedPrevious has)
      · exact Or.inr (mergedCopy_mergeFiles parsedPrevious parsedLive has)

/-! ### Calls -/

/-- The call on the registry that was loaded. -/
def callOn (kind : RetirementKind) (file : IdentitiesFile) (key now : String) :
    Except String IdentitiesFile :=
  match kind with
  | .retire => retireIdentity file key now
  | .unretire => unretireIdentity file key now

/-- The call changes the identity of the name: it is the one found, and retiring finds it not
retired. -/
def Changes (kind : RetirementKind) (file : IdentitiesFile) (key name : String) : Prop :=
  ∃ identity ∈ file.identities, key ∈ keysOf identity ∧ nameOf identity = name ∧
    (kind = .retire → isRetired identity = false)

theorem retirementOf_retireIdentityFields (identity : Object) (event : RetirementEvent runtime)
    (kind : event.kind = .retire) :
    retirementOf (retireIdentityFields identity event.now) = event.fields := by
  unfold RetirementEvent.fields
  rw [kind]
  unfold retirementOf retireIdentityFields
  simp

theorem retirementOf_unretireIdentityFields (identity : Object) (event : RetirementEvent runtime)
    (kind : event.kind = .unretire) :
    retirementOf (unretireIdentityFields identity event.now) = event.fields := by
  unfold RetirementEvent.fields
  rw [kind]
  unfold retirementOf unretireIdentityFields
  simp

theorem eq_of_key {file : IdentitiesFile} (valid : ValidFile runtime file) {key : String}
    {left right : Object} (isLeft : left ∈ file.identities) (isRight : right ∈ file.identities)
    (leftKey : key ∈ keysOf left) (rightKey : key ∈ keysOf right) : left = right := by
  refine eq_of_nameOf_eq valid.distinctNames isLeft isRight (by_contra fun different => ?_)
  exact valid.keys.2.2 left isLeft right isRight different leftKey rightKey

theorem nameOf_retireIdentityFields (identity : Object) (now : String) :
    nameOf (retireIdentityFields identity now) = nameOf identity := by
  unfold nameOf retireIdentityFields
  simp

theorem nameOf_unretireIdentityFields (identity : Object) (now : String) :
    nameOf (unretireIdentityFields identity now) = nameOf identity := by
  unfold nameOf unretireIdentityFields
  simp

/-- What a call makes of the one identity that it finds. -/
theorem callOn_eq_ok {event : RetirementEvent runtime} {file changed : IdentitiesFile}
    {key : String} (called : callOn event.kind file key event.now = .ok changed) :
    ∃ before identity after result, file.identities = before ++ identity :: after ∧
      changed.identities = before ++ result :: after ∧ key ∈ keysOf identity ∧
      nameOf result = nameOf identity ∧
      (result = identity ∧ event.kind = .retire ∧ isRetired identity = true ∨
        retirementOf result = event.fields ∧ (event.kind = .retire → isRetired identity = false)) := by
  unfold callOn at called
  cases kind : event.kind with
  | retire =>
    rw [kind] at called
    obtain ⟨identities, changes, same⟩ := (bind_eq_ok _ _ _).mp called
    cases same
    obtain ⟨before, identity, after, result, split, rejoined, named, change⟩ :=
      changeIdentity_eq_ok changes
    refine ⟨before, identity, after, result, split, rejoined, named, ?_⟩
    have change := Except.ok.inj change
    subst change
    by_cases retired : isRetired identity = true
    · rw [if_pos retired]
      exact ⟨rfl, Or.inl ⟨rfl, rfl, retired⟩⟩
    · rw [if_neg retired]
      exact ⟨nameOf_retireIdentityFields _ _, Or.inr
        ⟨retirementOf_retireIdentityFields _ event kind, fun _ => Bool.eq_false_iff.mpr retired⟩⟩
  | unretire =>
    rw [kind] at called
    obtain ⟨identities, changes, same⟩ := (bind_eq_ok _ _ _).mp called
    cases same
    obtain ⟨before, identity, after, result, split, rejoined, named, change⟩ :=
      changeIdentity_eq_ok changes
    refine ⟨before, identity, after, result, split, rejoined, named, ?_⟩
    split_ifs at change
    have change := Except.ok.inj change
    subst change
    exact ⟨nameOf_unretireIdentityFields _ _, Or.inr
      ⟨retirementOf_unretireIdentityFields _ event kind, (nomatch ·)⟩⟩

/-- What a call does to the copy: it changes as by the event, or stays. -/
theorem retirementOf_callOn {event : RetirementEvent runtime} {raw : Json}
    {file changed : IdentitiesFile} {key name : String} {copy : Object}
    (parsed : parseIdentitiesFile runtime raw = .ok file)
    (called : callOn event.kind file key event.now = .ok changed)
    (has : copyIn (some (saveIdentitiesFile runtime changed)) name = some copy) :
    ∃ before, copyIn (some raw) name = some before ∧
      ((Changes event.kind file key name ∧ retirementOf copy = event.fields) ∨
        (¬ Changes event.kind file key name ∧ retirementOf copy = retirementOf before)) := by
  have valid := validFile_of_parse runtime raw file parsed
  obtain ⟨before, identity, after, result, split, rejoined, keyed, sameName, change⟩ :=
    callOn_eq_ok called
  have isIdentity : identity ∈ file.identities := by
    rw [split]
    exact List.mem_append_right _ List.mem_cons_self
  obtain ⟨other, isOther, rfl, same⟩ := exists_of_copyIn_save has
  have found : ∀ candidate ∈ file.identities, nameOf candidate = nameOf other →
      copyIn (some raw) (nameOf other) = some candidate :=
    fun candidate member named => named ▸ copyIn_of_parse parsed member
  have stays : ∀ candidate ∈ file.identities,
      (retirementOf candidate).written = retirementOf candidate :=
    fun candidate member => (valid.identities candidate member).written_retirementOf
  rw [rejoined] at isOther
  by_cases isResult : other = result
  · subst isResult
    refine ⟨identity, found identity isIdentity sameName.symm, ?_⟩
    rcases change with ⟨rfl, retires, retired⟩ | ⟨fields, changes⟩
    · refine Or.inr ⟨fun changes => ?_, same.trans (stays other isIdentity)⟩
      obtain ⟨candidate, member, hasKey, -, notRetired⟩ := changes
      rw [eq_of_key valid member isIdentity hasKey keyed, retired] at notRetired
      exact Bool.noConfusion (notRetired retires)
    · refine Or.inl ⟨⟨identity, isIdentity, keyed, sameName.symm, changes⟩, same.trans ?_⟩
      rw [fields, event.written_fields]
  · have beside : other ∈ before ∨ other ∈ after := by
      rcases List.mem_append.mp isOther with inBefore | inAfter
      · exact Or.inl inBefore
      · exact Or.inr ((List.mem_cons.mp inAfter).resolve_left isResult)
    have member : other ∈ file.identities := by
      rw [split, List.mem_append, List.mem_cons]
      exact beside.imp_right Or.inr
    refine ⟨other, found other member rfl, Or.inr ⟨fun changes => ?_, same.trans (stays other member)⟩⟩
    obtain ⟨candidate, isCandidate, hasKey, named, -⟩ := changes
    rw [eq_of_key valid isCandidate isIdentity hasKey keyed] at named
    have distinct := valid.distinctNames
    rw [split, List.map_append, List.map_cons, List.nodup_append, List.nodup_cons] at distinct
    rcases beside with inBefore | inAfter
    · exact distinct.2.2 _ (List.mem_map_of_mem inBefore) _ List.mem_cons_self named.symm
    · exact distinct.2.1.1 (named ▸ List.mem_map_of_mem inAfter)

/-! ### Hosts -/

/-- The registries of the hosts, with the events that have reached each host's copy. -/
structure Fleet (runtime : Runtime) (Host : Type) where
  registries : Host → Option Json
  reached : Host → List (RetirementEvent runtime)

variable {Host : Type} [DecidableEq Host]

/-- A host's registry is written. The events that reached the copy go with it. -/
def Fleet.put (name : String) (fleet : Fleet runtime Host) (host : Host) (registry : Option Json)
    (reached : List (RetirementEvent runtime)) : Fleet runtime Host where
  registries := Function.update fleet.registries host registry
  reached := Function.update fleet.reached host
    (if (copyIn registry name).isSome then reached else [])

/-- What happens to the copies of the identity `name`. A call that changes a copy is later than the
event the copy tells of. A merge writes what comes of another host's registry and the own one. Any
other edit keeps the three members of the copy, or removes it. -/
inductive Fleet.Step (name : String) : Fleet runtime Host → Fleet runtime Host → Prop
  | call (fleet : Fleet runtime Host) (host : Host) (event : RetirementEvent runtime)
      (key : String) {raw : Json} {file changed : IdentitiesFile}
      (registry : fleet.registries host = some raw)
      (parsed : parseIdentitiesFile runtime raw = .ok file)
      (called : callOn event.kind file key event.now = .ok changed)
      (changes : Changes event.kind file key name)
      (later : ∀ copy ms, copyIn (some raw) name = some copy →
        lastRetirementEventMs runtime copy = some ms → ms < event.ms) :
      Step name fleet (fleet.put name host (some (saveIdentitiesFile runtime changed))
        (event :: fleet.reached host))
  | otherCall (fleet : Fleet runtime Host) (host : Host) (event : RetirementEvent runtime)
      (key : String) {raw : Json} {file changed : IdentitiesFile}
      (registry : fleet.registries host = some raw)
      (parsed : parseIdentitiesFile runtime raw = .ok file)
      (called : callOn event.kind file key event.now = .ok changed)
      (unchanged : ¬ Changes event.kind file key name) :
      Step name fleet (fleet.put name host (some (saveIdentitiesFile runtime changed))
        (fleet.reached host))
  | merge (fleet : Fleet runtime Host) (host other : Host) (liveMtime previousMtime : ℚ)
      {saved : Json}
      (merged : mergeRegistryConflict runtime (fleet.registries other) (fleet.registries host)
        liveMtime previousMtime = .ok (some saved)) :
      Step name fleet (fleet.put name host (some saved) (fleet.reached other ++ fleet.reached host))
  | edit (fleet : Fleet runtime Host) (host : Host) (registry : Option Json)
      (unrelated : ∀ copy, copyIn registry name = some copy → ∃ before,
        copyIn (fleet.registries host) name = some before ∧ retirementOf copy = retirementOf before) :
      Step name fleet (fleet.put name host registry (fleet.reached host))

/-- Calls, merges and edits in any order. -/
def Fleet.Run (name : String) : Fleet runtime Host → Fleet runtime Host → Prop :=
  Relation.ReflTransGen (Fleet.Step name)

/-- What holds of one host's registry and the events that have reached it. -/
structure CopyFollows (name : String) (initial : RetirementFields) (registry : Option Json)
    (reached : List (RetirementEvent runtime)) : Prop where
  absent : copyIn registry name = none → reached = []
  later : AllLater initial reached
  newest : ∀ copy, copyIn registry name = some copy →
    FollowNewest initial reached (retirementOf copy)

variable {name : String} {registry other : Option Json}
  {reached otherReached : List (RetirementEvent runtime)}

/-- A merge of two copies, one of which may be missing. -/
theorem CopyFollows.merge
    (first : CopyFollows name initial registry firstEvents)
    (second : CopyFollows name initial other secondEvents) {copy : Object}
    (merged : MergedCopy runtime (copyIn registry name) (copyIn other name) copy) :
    FollowNewest initial (firstEvents ++ secondEvents) (retirementOf copy) := by
  unfold MergedCopy at merged
  cases hasFirst : copyIn registry name with
  | none =>
    rw [first.absent hasFirst, List.nil_append]
    cases hasSecond : copyIn other name with
    | none => rw [hasFirst, hasSecond] at merged; cases merged
    | some only =>
      rw [hasFirst, hasSecond] at merged
      exact merged ▸ second.newest only hasSecond
  | some primary =>
    cases hasSecond : copyIn other name with
    | none =>
      rw [hasFirst, hasSecond] at merged
      rw [second.absent hasSecond, List.append_nil]
      exact merged ▸ first.newest primary hasFirst
    | some secondary =>
      rw [hasFirst, hasSecond] at merged
      exact merged ▸ (first.newest primary hasFirst).merge (second.newest secondary hasSecond)
        first.later second.later

/-- Writing one registry. -/
theorem copyFollows_put {fleet : Fleet runtime Host}
    (follows : ∀ host, CopyFollows name initial (fleet.registries host) (fleet.reached host))
    {host : Host} (later : AllLater initial reached)
    (newest : ∀ copy, copyIn registry name = some copy →
      FollowNewest initial reached (retirementOf copy)) :
    ∀ here, CopyFollows name initial ((fleet.put name host registry reached).registries here)
      ((fleet.put name host registry reached).reached here) := by
  intro here
  unfold Fleet.put
  dsimp only
  by_cases same : here = host
  · subst same
    rw [Function.update_self, Function.update_self]
    cases has : copyIn registry name with
    | none =>
      refine ⟨fun _ => rfl, fun _ isEvent => (nomatch isEvent), fun copy same => ?_⟩
      rw [has] at same
      cases same
    | some copy =>
      refine ⟨fun none => ?_, later, newest⟩
      rw [has] at none
      cases none
  · rw [Function.update_of_ne same, Function.update_of_ne same]
    exact follows here

/-- The step lemma. -/
theorem Fleet.Step.copyFollows {before after : Fleet runtime Host} (step : Fleet.Step name before after)
    (follows : ∀ host, CopyFollows name initial (before.registries host) (before.reached host)) :
    ∀ host, CopyFollows name initial (after.registries host) (after.reached host) := by
  cases step with
  | call host event key registry parsed called changes later =>
    have here := follows host
    rw [registry] at here
    obtain ⟨identity, member, -, named, -⟩ := id changes
    have has := named ▸ copyIn_of_parse parsed member
    have newest := here.newest identity has
    have later := fun ms => later identity ms has
    refine copyFollows_put follows (newest.later here.later later) fun copy has => ?_
    obtain ⟨-, -, ⟨-, changed⟩ | ⟨unchanged, -⟩⟩ := retirementOf_callOn parsed called has
    · rw [changed]
      exact newest.cons event later
    · exact absurd changes unchanged
  | otherCall host event key registry parsed called unchanged =>
    have here := follows host
    refine copyFollows_put follows here.later fun copy has => ?_
    rw [registry] at here
    obtain ⟨earlier, hadCopy, ⟨changes, -⟩ | ⟨-, same⟩⟩ := retirementOf_callOn parsed called has
    · exact absurd changes unchanged
    · rw [same]
      exact here.newest earlier hadCopy
  | merge host other liveMtime previousMtime merged =>
    refine copyFollows_put follows (fun event isEvent => ?_) fun copy has => ?_
    · rcases List.mem_append.mp isEvent with isOther | isOwn
      · exact (follows other).later event isOther
      · exact (follows host).later event isOwn
    · rcases mergedCopy_mergeRegistryConflict merged has with ordered | swapped
      · exact (follows other).merge (follows host) ordered
      · refine ((follows host).merge (follows other) swapped).congr fun event => ?_
        rw [List.mem_append, List.mem_append, or_comm]
  | edit host registry unrelated =>
    refine copyFollows_put follows (follows host).later fun copy has => ?_
    obtain ⟨earlier, hadCopy, same⟩ := unrelated copy has
    rw [same]
    exact (follows host).newest earlier hadCopy

/-- The run lemma. -/
theorem Fleet.Run.copyFollows {start finish : Fleet runtime Host} (run : Fleet.Run name start finish)
    (follows : ∀ host, CopyFollows name initial (start.registries host) (start.reached host)) :
    ∀ host, CopyFollows name initial (finish.registries host) (finish.reached host) := by
  induction run with
  | refl => exact follows
  | tail _ step inductionHypothesis => exact step.copyFollows inductionHypothesis

/-- Whatever the order of calls, merges and edits, a copy has the members that the newest event
which reached it has set, or those all copies started with when none did. -/
theorem retirement_followsNewest (runtime : Runtime) (name : String) (initial : RetirementFields)
    (registries : Host → Option Json) {finish : Fleet runtime Host}
    (equal : ∀ host copy, copyIn (registries host) name = some copy → retirementOf copy = initial)
    (run : Fleet.Run name ⟨registries, fun _ => []⟩ finish) (host : Host) {copy : Object}
    (has : copyIn (finish.registries host) name = some copy) :
    FollowNewest initial (finish.reached host) (retirementOf copy) := by
  refine (run.copyFollows (fun host => ?_) host).newest copy has
  exact ⟨fun _ => rfl, fun _ isEvent => (nomatch isEvent),
    fun copy has => Or.inl ⟨rfl, equal host copy has⟩⟩

end Gossip

/-! ### Two hosts -/

namespace TwoHosts

/-- The one date there is. -/
def runtime : Runtime where
  normalizePath path := path
  dateParse text := if text = "2026-01-01T00:00:00.000Z" then some 1767225600000 else none
  localHome := "/home/user"
  aisHostHome := none

def event : RetirementEvent runtime where
  kind := .retire
  now := "2026-01-01T00:00:00.000Z"
  ms := 1767225600000
  dated := rfl

def work : Object :=
  [("name", .str "work"), ("label", .str "Work"), ("configDir", .str "~/.claude/identities/work")]

def registry : Json :=
  .obj [("version", .num (.finite 1)), ("identities", .arr [.obj work])]

/-- The file in which the identity has been retired. -/
def retiredFile : Except String IdentitiesFile := do
  let file ← parseIdentitiesFile runtime registry
  callOn event.kind file "work" event.now

end TwoHosts

open TwoHosts in
/-- An identity is retired on one host; after a merge its copy on the other host is retired, although
the own registry was the newer file. -/
theorem retirement_followsNewest_merged :
    ∃ (finish : Fleet TwoHosts.runtime Bool) (copy : Object),
      Fleet.Run "work" ⟨fun _ => some registry, fun _ => []⟩ finish ∧
      copyIn (finish.registries false) "work" = some copy ∧ finish.reached false = [event] ∧
      FollowNewest ⟨none, none, none⟩ (finish.reached false) (retirementOf copy) := by
  have nothingYet : retirementOf work = ⟨none, none, none⟩ := rfl
  have isCopy : ∀ copy, copyIn (some registry) "work" = some copy → copy = work :=
    fun copy has => (Option.some.inj has).symm
  have run : Fleet.Run "work" (⟨fun _ => some registry, fun _ => []⟩ : Fleet TwoHosts.runtime Bool) _ :=
    (Relation.ReflTransGen.single (.call _ true event "work" rfl rfl rfl
      ⟨work, List.mem_cons_self, List.mem_cons_self, rfl, fun _ => rfl⟩
      fun copy ms has told => by
        rw [isCopy copy has, lastRetirementEventMs_eq, nothingYet] at told
        cases told)).tail
      (.merge _ false true 0 1 rfl)
  refine ⟨_, _, run, rfl, rfl, ?_⟩
  refine retirement_followsNewest TwoHosts.runtime "work" ⟨none, none, none⟩ (fun _ => some registry)
    (fun host copy has => ?_) run false rfl
  rw [isCopy copy has, nothingYet]

end AiSwitcher
