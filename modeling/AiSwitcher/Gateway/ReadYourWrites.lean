/-
This file proves that in an orderly run of the cache every write that has reached it
shows in every later read.

The store after some of its writes and the cache are both copies: a copy shows the writes
that have reached it. A copy that shows some writes and is reached by one more, in order,
shows that one too. So the store at every moment shows all the writes until then; what a
warm-up installs shows the writes that came before it was read; and the cache shows
the writes that have reached it.
-/

import AiSwitcher.Gateway.CacheStore

namespace AiSwitcher.Gateway

open JavaScript CacheRun

variable {Settings : Type}

/-! ### One cell at a time -/

/-- What a write does to the application of a name. -/
def Write.appOf (name : String) (app : Option (GatewayApp Settings)) :
    Write Settings → Option (GatewayApp Settings)
  | .putApp put => if name = put.name then some put else app
  | .revokeApp revoked =>
      if name = revoked then app.map fun app => { app with state := .revoked } else app
  | .addToken _ | .expireTokens _ _ => app

/-- What a write does to the tokens of an application. -/
def Write.tokensOf (app : String) (tokens : List TokenRecord) : Write Settings → List TokenRecord
  | .addToken rec => if rec.app = app then tokens ++ [rec] else tokens
  | .expireTokens other at_ =>
      if other = app then tokens.map (TokenRecord.expire at_) else tokens
  | .putApp _ | .revokeApp _ => tokens

theorem get_apps (apps : Members (GatewayApp Settings)) (write : Write Settings) (name : String) :
    (write.apps apps).get name = write.appOf name (apps.get name) := by
  cases write with
  | putApp app => exact Members.get_set ..
  | revokeApp revoked =>
    rw [Write.apps, Write.appOf]
    by_cases same : name = revoked
    · subst same
      cases isApp : apps.get name with
      | none => simp [isApp]
      | some app => simp
    · rw [if_neg same]
      split
      · rw [Members.get_set, if_neg same]
      · rfl
  | addToken rec => rfl
  | expireTokens app at_ => rfl

theorem Tables.getApp_write {tables : Tables Settings} {write : Write Settings}
    (accepted : tables.Accepts write) (name : String) :
    (tables.write write).getApp name = write.appOf name (tables.getApp name) := by
  rw [Tables.write, dif_pos accepted]
  exact get_apps tables.apps write name

theorem filter_expireTokens (tokens : List TokenRecord) (app other at_ : String) :
    (tokens.map fun token => if token.app = other then token.expire at_ else token).filter
        (fun token => token.app = app) =
      if other = app then
        (tokens.filter fun token => token.app = app).map (TokenRecord.expire at_)
      else tokens.filter fun token => token.app = app := by
  induction tokens with
  | nil => simp
  | cons token rest inductionHypothesis =>
    rw [List.map_cons, List.filter_cons, inductionHypothesis]
    by_cases isOther : token.app = other
    · by_cases isApp : token.app = app
      · simp [isOther ▸ isApp, isApp]
      · have different : other ≠ app := fun same => isApp (isOther.trans same)
        simp [isOther, different]
    · by_cases isApp : token.app = app
      · have different : other ≠ app := fun same => isOther (isApp.trans same.symm)
        simp [isApp, different, Ne.symm different]
      · simp [isOther, isApp]

theorem Tables.tokensFor_write {tables : Tables Settings} {write : Write Settings}
    (accepted : tables.Accepts write) (app : String) :
    (tables.write write).tokensFor app = write.tokensOf app (tables.tokensFor app) := by
  rw [Tables.write, dif_pos accepted]
  cases write with
  | putApp put => rfl
  | revokeApp name => rfl
  | addToken rec =>
    show (tables.tokens ++ [rec]).filter _ = _
    rw [List.filter_append, Write.tokensOf]
    by_cases same : rec.app = app
    · simp [same, Tables.tokensFor]
    · simp [same, Tables.tokensFor]
  | expireTokens other at_ => exact filter_expireTokens tables.tokens app other at_

theorem CachedGatewayStore.getApp_write (cache : CachedGatewayStore Settings)
    (write : Write Settings) (name : String) :
    (cache.write write).getApp name = write.appOf name (cache.getApp name) := by
  rw [getApp, getApp, ← get_apps]
  cases write <;> rfl

theorem CachedGatewayStore.tokensFor_write (cache : CachedGatewayStore Settings)
    (write : Write Settings) (app : String) :
    (cache.write write).tokensFor app = write.tokensOf app (cache.tokensFor app) := by
  cases write with
  | putApp put =>
    simp only [tokensFor, CachedGatewayStore.write, Write.tokensOf]
    split
    · rfl
    next absent =>
      rw [Members.get_set]
      split
      next same =>
        rw [← Members.isSome_get, Bool.not_eq_true, Option.isSome_eq_false_iff,
          Option.isNone_iff_eq_none] at absent
        rw [same, absent]
        rfl
      · rfl
  | revokeApp name => rfl
  | addToken rec =>
    simp only [tokensFor, CachedGatewayStore.write, Write.tokensOf, Members.get_set]
    by_cases same : rec.app = app
    · simp [same]
    · simp [same, Ne.symm same]
  | expireTokens other at_ =>
    simp only [tokensFor, CachedGatewayStore.write, Write.tokensOf, Members.get_set]
    by_cases same : other = app
    · simp [same]
    · simp [same, Ne.symm same]

/-! ### The history of the store -/

variable {history : History Settings} {index : Nat} {write : Write Settings}

/-- The store has taken every write. -/
def History.Accepted (history : History Settings) : Prop :=
  ∀ index write, history.log[index]? = some write → (history.storeAt index).Accepts write

theorem storeAt_succ (isWrite : history.log[index]? = some write) :
    history.storeAt (index + 1) = (history.storeAt index).write write := by
  rw [History.storeAt, List.take_add_one, isWrite, List.foldl_append]
  rfl

theorem storeAt_succ_of_none (ended : history.log[index]? = none) :
    history.storeAt (index + 1) = history.storeAt index := by
  rw [History.storeAt, List.take_add_one, ended]
  exact congrArg (List.foldl Tables.write history.initial) (List.append_nil _)

theorem storeAt_zero : history.storeAt 0 = history.initial := by
  rw [History.storeAt, List.take_zero]
  rfl

theorem writtenSince_self (isWrite : history.log[index]? = some write) {since : Nat}
    (after : since ≤ index) : history.WrittenSince since write :=
  ⟨index, after, isWrite⟩

/-- The writes that have reached a copy reach it in order with one more write. -/
structure InOrder (history : History Settings) (reached : Nat → Prop) (index : Nat)
    (write : Write Settings) : Prop where
  earlier : ∀ other before, other < index → history.log[other]? = some before →
    Conflict before write → reached other
  later : ∀ other after, index < other → reached other → history.log[other]? = some after →
    ¬Conflict write after

theorem inOrder_lt (history : History Settings) (index : Nat) (write : Write Settings) :
    InOrder history (· < index) index write where
  earlier := fun _ _ before _ _ => before
  later := fun _ _ after reached _ _ => lt_asymm after reached

/-! ### Copies of an application -/

/-- What a read of an application shows of a write. -/
def ShowsApp (history : History Settings) (index : Nat) (name : String)
    (app : Option (GatewayApp Settings)) : Write Settings → Prop
  | .putApp put => put.name = name → ∃ read, app = some read ∧ history.FieldsSince index read ∧
      history.StateSince index name read.state
  | .revokeApp revoked => revoked = name → (history.storeAt index).getApp name ≠ none →
      ∃ read, app = some read ∧ history.StateSince index name read.state
  | .addToken _ | .expireTokens _ _ => True

/-- A later write that changes the application is shown instead. -/
theorem ShowsApp.step {later : Nat} {name : String} {app : Option (GatewayApp Settings)}
    {newer : Write Settings} (shown : ShowsApp history index name app write)
    (isWrite : history.log[index]? = some write) (isNewer : history.log[later]? = some newer)
    (inOrder : later < index → ¬Conflict newer write) :
    ShowsApp history index name (newer.appOf name app) write := by
  have after : Conflict newer write → index ≤ later := fun conflict =>
    not_lt.mp fun before => inOrder before conflict
  cases write with
  | putApp put =>
    intro same
    obtain ⟨read, isRead, fields, state⟩ := shown same
    subst isRead
    cases newer with
    | putApp other =>
      rw [Write.appOf]
      split
      next isOther =>
        have since := writtenSince_self isNewer (after (isOther.symm.trans same.symm))
        exact ⟨other, rfl, ⟨other.state, since⟩, .inl ⟨other, since, isOther.symm, rfl⟩⟩
      next => exact ⟨read, rfl, fields, state⟩
    | revokeApp revoked =>
      rw [Write.appOf]
      split
      next isRevoked =>
        have since := writtenSince_self isNewer (after (isRevoked.symm.trans same.symm))
        exact ⟨_, rfl, fields, .inr ⟨isRevoked ▸ since, rfl⟩⟩
      next => exact ⟨read, rfl, fields, state⟩
    | addToken rec => exact ⟨read, rfl, fields, state⟩
    | expireTokens other at_ => exact ⟨read, rfl, fields, state⟩
  | revokeApp revoked =>
    intro same isThere
    obtain ⟨read, isRead, state⟩ := shown same isThere
    subst isRead
    cases newer with
    | putApp other =>
      rw [Write.appOf]
      split
      next isOther =>
        have since := writtenSince_self isNewer (after (isOther.symm.trans same.symm))
        exact ⟨other, rfl, .inl ⟨other, since, isOther.symm, rfl⟩⟩
      next => exact ⟨read, rfl, state⟩
    | revokeApp other =>
      rw [Write.appOf]
      split
      · -- Either revocation will do, whichever came first.
        exact ⟨_, rfl, .inr ⟨same ▸ writtenSince_self isWrite le_rfl, rfl⟩⟩
      · exact ⟨read, rfl, state⟩
    | addToken rec => exact ⟨read, rfl, state⟩
    | expireTokens other at_ => exact ⟨read, rfl, state⟩
  | addToken rec => trivial
  | expireTokens other at_ => trivial

/-- A write is shown right after it. -/
theorem showsApp_self {name : String} {app : Option (GatewayApp Settings)}
    (isWrite : history.log[index]? = some write)
    (knows : write = .revokeApp name → (history.storeAt index).getApp name ≠ none → app ≠ none) :
    ShowsApp history index name (write.appOf name app) write := by
  have since := writtenSince_self isWrite le_rfl
  cases write with
  | putApp put =>
    rintro rfl
    exact ⟨put, if_pos rfl, ⟨put.state, since⟩, .inl ⟨put, since, rfl, rfl⟩⟩
  | revokeApp revoked =>
    rintro rfl isThere
    obtain ⟨read, isRead⟩ := Option.ne_none_iff_exists'.mp (knows rfl isThere)
    refine ⟨{ read with state := .revoked }, ?_, .inr ⟨since, rfl⟩⟩
    rw [Write.appOf, if_pos rfl, isRead]
    rfl
  | addToken rec => trivial
  | expireTokens other at_ => trivial

theorem appOf_ne_none {name : String} {app : Option (GatewayApp Settings)} (isThere : app ≠ none)
    (write : Write Settings) : write.appOf name app ≠ none := by
  cases write with
  | putApp put =>
    rw [Write.appOf]
    split
    · exact Option.some_ne_none put
    · exact isThere
  | revokeApp revoked =>
    rw [Write.appOf]
    split
    · exact fun none => isThere (Option.map_eq_none_iff.mp none)
    · exact isThere
  | addToken rec => exact isThere
  | expireTokens other at_ => exact isThere

/-- A copy of an application: it shows the writes that have reached it, and if it was loaded it is
there whenever it was there at the beginning. -/
structure AppCopy (history : History Settings) (reached : Nat → Prop) (loaded : Prop) (name : String)
    (app : Option (GatewayApp Settings)) : Prop where
  showsApp : ∀ index write, reached index → history.log[index]? = some write →
    ShowsApp history index name app write
  isThere : loaded → history.initial.getApp name ≠ none → app ≠ none

section AppCopies

variable {reached : Nat → Prop} {loaded : Prop} {name : String}
  {app : Option (GatewayApp Settings)}

theorem AppCopy.step (copy : AppCopy history reached loaded name app)
    (isWrite : history.log[index]? = some write) (inOrder : InOrder history reached index write)
    (knows : write = .revokeApp name → (history.storeAt index).getApp name ≠ none → app ≠ none) :
    AppCopy history (fun other => other = index ∨ reached other) loaded name
      (write.appOf name app) where
  showsApp := by
    rintro other before (rfl | isReached) isBefore
    · obtain rfl := Option.some.inj (isWrite.symm.trans isBefore)
      exact showsApp_self isWrite knows
    · exact (copy.showsApp other before isReached isBefore).step isBefore isWrite fun later =>
        inOrder.later other before later isReached isBefore
  isThere := fun isLoaded initially => appOf_ne_none (copy.isThere isLoaded initially) write

/-- An application of the store was there at the beginning or was put there. -/
theorem put_of_getApp_storeAt (accepted : history.Accepted) :
    ∀ count, (history.storeAt count).getApp name ≠ none → history.initial.getApp name ≠ none ∨
      ∃ put, ∃ earlier < count, history.log[earlier]? = some (.putApp put) ∧ put.name = name := by
  intro count
  induction count with
  | zero =>
    intro isThere
    rw [storeAt_zero] at isThere
    exact .inl isThere
  | succ count inductionHypothesis =>
    intro isThere
    have earlier (before : (history.storeAt count).getApp name ≠ none) :
        history.initial.getApp name ≠ none ∨ ∃ put, ∃ earlier < count + 1,
          history.log[earlier]? = some (.putApp put) ∧ put.name = name := by
      obtain initially | ⟨put, earlier, less, isPut⟩ := inductionHypothesis before
      · exact .inl initially
      · exact .inr ⟨put, earlier, Nat.lt_succ_of_lt less, isPut⟩
    cases isWrite : history.log[count]? with
    | none => exact earlier (storeAt_succ_of_none isWrite ▸ isThere)
    | some write =>
      rw [storeAt_succ isWrite, Tables.getApp_write (accepted count write isWrite)] at isThere
      cases write with
      | putApp put =>
        rw [Write.appOf] at isThere
        split at isThere
        next same => exact .inr ⟨put, count, Nat.lt_succ_self _, isWrite, same.symm⟩
        next => exact earlier isThere
      | revokeApp revoked =>
        rw [Write.appOf] at isThere
        split at isThere
        · exact earlier fun none => isThere (Option.map_eq_none_iff.mpr none)
        · exact earlier isThere
      | addToken rec => exact earlier isThere
      | expireTokens other at_ => exact earlier isThere

/-- A loaded copy has what a revocation changes. -/
theorem AppCopy.knows (copy : AppCopy history reached loaded name app) (isLoaded : loaded)
    (accepted : history.Accepted) (inOrder : InOrder history reached index (.revokeApp name))
    (isThere : (history.storeAt index).getApp name ≠ none) : app ≠ none := by
  obtain initially | ⟨put, earlier, less, isPut, same⟩ :=
    put_of_getApp_storeAt accepted index isThere
  · exact copy.isThere isLoaded initially
  · have isReached := inOrder.earlier earlier _ less isPut same
    obtain ⟨read, isRead, -⟩ := copy.showsApp earlier _ isReached isPut same
    exact isRead ▸ Option.some_ne_none read

theorem AppCopy.mono {fewer : Nat → Prop} (copy : AppCopy history reached loaded name app)
    (among : ∀ index write, fewer index → history.log[index]? = some write →
      write.cell = .app name → reached index) :
    AppCopy history fewer loaded name app where
  showsApp := by
    intro index write isReached isWrite
    cases write with
    | putApp put =>
      intro same
      have isReached := among index _ isReached isWrite (congrArg Cell.app same)
      exact copy.showsApp index _ isReached isWrite same
    | revokeApp revoked =>
      intro same
      have isReached := among index _ isReached isWrite (congrArg Cell.app same)
      exact copy.showsApp index _ isReached isWrite same
    | addToken rec => trivial
    | expireTokens other at_ => trivial
  isThere := copy.isThere

/-- The store shows all its writes. -/
theorem appCopy_storeAt (accepted : history.Accepted) (count : Nat) :
    AppCopy history (· < count) True name ((history.storeAt count).getApp name) := by
  induction count with
  | zero =>
    refine ⟨fun _ _ before => absurd before (Nat.not_lt_zero _), fun _ initially => ?_⟩
    rwa [storeAt_zero]
  | succ count inductionHypothesis =>
    have reaches : ∀ other, other < count + 1 → other = count ∨ other < count := fun other before =>
      (Nat.lt_succ_iff_lt_or_eq.mp before).symm
    cases isWrite : history.log[count]? with
    | none =>
      rw [storeAt_succ_of_none isWrite]
      refine inductionHypothesis.mono fun other write before isOther _ => ?_
      obtain rfl | before := reaches other before
      · cases isWrite.symm.trans isOther
      · exact before
    | some write =>
      rw [storeAt_succ isWrite, Tables.getApp_write (accepted count write isWrite)]
      have next := inductionHypothesis.step isWrite (inOrder_lt history count write)
        fun _ isThere => isThere
      exact next.mono fun other _ before _ _ => reaches other before

end AppCopies

/-! ### Copies of the tokens of an application -/

@[simp] theorem expiresAt_expire (at_ : String) (token : TokenRecord) :
    (token.expire at_).expiresAt ≠ none := by
  unfold TokenRecord.expire
  split
  · exact Option.some_ne_none at_
  next has => exact has

theorem expire_of_expiresAt {at_ : String} {token : TokenRecord} (has : token.expiresAt ≠ none) :
    token.expire at_ = token :=
  if_neg has

/-- The first expiry of an application's tokens from an index on. -/
structure FirstExpiry (history : History Settings) (app : String) (start index : Nat)
    (at_ : String) : Prop where
  after : start ≤ index
  isExpiry : history.log[index]? = some (.expireTokens app at_)
  first : ∀ other, start ≤ other → other < index → ∀ at_,
    history.log[other]? ≠ some (.expireTokens app at_)

/-- A token was there at the beginning or was added, and what came from that index on could
expire it. -/
def AddedAt (history : History Settings) (app : String) (start : Nat) (rec : TokenRecord) : Prop :=
  (start = 0 ∧ rec ∈ history.initial.tokensFor app) ∨
    ∃ index, start = index + 1 ∧ history.log[index]? = some (.addToken rec)

/-- No expiry that has reached a copy came from an index on. -/
def NotExpired (history : History Settings) (reached : Nat → Prop) (app : String) (start : Nat) :
    Prop :=
  ∀ index, start ≤ index → reached index → ∀ at_,
    history.log[index]? ≠ some (.expireTokens app at_)

/-- A copy has a token as it was added, if no later expiry has reached it, or as the first expiry
has left it. -/
def Holds (history : History Settings) (reached : Nat → Prop) (app : String)
    (tokens : List TokenRecord) (start : Nat) (rec : TokenRecord) : Prop :=
  (rec ∈ tokens ∧ (rec.expiresAt = none → NotExpired history reached app start)) ∨
    ∃ index at_, FirstExpiry history app start index at_ ∧ rec.expire at_ ∈ tokens

/-- A copy of the tokens of an application: it holds those whose addition has reached it, and if it
was loaded those of the beginning; the expiries that have reached it show; and a token without
an expiry came after all of them. -/
structure TokensCopy (history : History Settings) (reached : Nat → Prop) (loaded : Prop)
    (app : String) (tokens : List TokenRecord) : Prop where
  added : ∀ index rec, reached index → history.log[index]? = some (.addToken rec) → rec.app = app →
    Holds history reached app tokens (index + 1) rec
  expired : ∀ index at_, reached index → history.log[index]? = some (.expireTokens app at_) →
    ∀ rec ∈ (history.storeAt index).tokensFor app, rec.expiresAt = none →
      rec.expire at_ ∈ tokens
  unexpired : ∀ rec ∈ tokens, rec.expiresAt = none →
    ∃ start, AddedAt history app start rec ∧ NotExpired history reached app start
  initially : loaded → ∀ rec ∈ history.initial.tokensFor app,
    Holds history reached app tokens 0 rec

section TokensCopies

variable {reached fewer : Nat → Prop} {loaded : Prop} {app : String} {tokens : List TokenRecord}
  {start : Nat} {rec : TokenRecord}

theorem NotExpired.mono (notExpired : NotExpired history reached app start)
    (among : ∀ index at_, fewer index → history.log[index]? = some (.expireTokens app at_) →
      reached index) : NotExpired history fewer app start :=
  fun index after isReached at_ isExpiry =>
    notExpired index after (among index at_ isReached isExpiry) at_ isExpiry

theorem TokensCopy.mono (copy : TokensCopy history reached loaded app tokens)
    (among : ∀ index write, fewer index → history.log[index]? = some write →
      write.cell = .tokens app → reached index) :
    TokensCopy history fewer loaded app tokens := by
  have amongExpiries : ∀ index at_, fewer index →
      history.log[index]? = some (.expireTokens app at_) → reached index :=
    fun index at_ isReached isExpiry => among index _ isReached isExpiry rfl
  have holds : ∀ {start rec}, Holds history reached app tokens start rec →
      Holds history fewer app tokens start rec := fun held =>
    held.imp_left fun ⟨member, notExpired⟩ =>
      ⟨member, fun unexpired => (notExpired unexpired).mono amongExpiries⟩
  exact
    { added := fun index rec isReached isAdded same =>
        holds (copy.added index rec (among index _ isReached isAdded (congrArg Cell.tokens same))
          isAdded same)
      expired := fun index at_ isReached isExpiry =>
        copy.expired index at_ (amongExpiries index at_ isReached isExpiry) isExpiry
      unexpired := fun rec member unexpired =>
        let ⟨start, isAdded, notExpired⟩ := copy.unexpired rec member unexpired
        ⟨start, isAdded, notExpired.mono amongExpiries⟩
      initially := fun isLoaded rec member => holds (copy.initially isLoaded rec member) }

theorem tokensOf_of_ne_cell (elsewhere : write.cell ≠ .tokens app) :
    write.tokensOf app tokens = tokens := by
  cases write with
  | putApp put => rfl
  | revokeApp name => rfl
  | addToken rec => exact if_neg fun same => elsewhere (congrArg Cell.tokens same)
  | expireTokens other at_ => exact if_neg fun same => elsewhere (congrArg Cell.tokens same)

/-- A write elsewhere leaves the copy. -/
theorem TokensCopy.elsewhere (copy : TokensCopy history reached loaded app tokens)
    (isWrite : history.log[index]? = some write) (elsewhere : write.cell ≠ .tokens app) :
    TokensCopy history (fun other => other = index ∨ reached other) loaded app
      (write.tokensOf app tokens) := by
  rw [tokensOf_of_ne_cell elsewhere]
  refine copy.mono fun other otherWrite isReached isOther isCell => ?_
  obtain rfl | isReached := isReached
  · obtain rfl := Option.some.inj (isWrite.symm.trans isOther)
    exact absurd isCell elsewhere
  · exact isReached

theorem NotExpired.add (notExpired : NotExpired history reached app start) {added : TokenRecord}
    (isAdded : history.log[index]? = some (.addToken added)) :
    NotExpired history (fun other => other = index ∨ reached other) app start :=
  notExpired.mono fun other at_ isReached isExpiry => by
    obtain rfl | isReached := isReached
    · cases isAdded.symm.trans isExpiry
    · exact isReached

theorem Holds.add (held : Holds history reached app tokens start rec) {added : TokenRecord}
    (isAdded : history.log[index]? = some (.addToken added)) :
    Holds history (fun other => other = index ∨ reached other) app (tokens ++ [added]) start
      rec := by
  obtain ⟨member, notExpired⟩ | ⟨other, at_, first, member⟩ := held
  · exact .inl ⟨List.mem_append_left _ member, fun none => (notExpired none).add isAdded⟩
  · exact .inr ⟨other, at_, first, List.mem_append_left _ member⟩

/-- A token reaches the copy. -/
theorem TokensCopy.add (copy : TokensCopy history reached loaded app tokens)
    (isAdded : history.log[index]? = some (.addToken rec)) (same : rec.app = app)
    (inOrder : InOrder history reached index (.addToken rec)) :
    TokensCopy history (fun other => other = index ∨ reached other) loaded app
      (tokens ++ [rec]) := by
  have fresh : NotExpired history (fun other => other = index ∨ reached other) app (index + 1) := by
    rintro other after (rfl | isReached) at_ isExpiry
    · exact Nat.not_succ_le_self _ after
    · exact inOrder.later other _ after isReached isExpiry same
  refine { added := ?_, expired := ?_, unexpired := ?_, initially := ?_ }
  · rintro other added (rfl | isReached) isOther isApp
    · obtain rfl : rec = added := by simpa using isAdded.symm.trans isOther
      exact .inl ⟨List.mem_append_right _ (List.mem_singleton_self _), fun _ => fresh⟩
    · exact (copy.added other added isReached isOther isApp).add isAdded
  · rintro other at_ (rfl | isReached) isExpiry earlier member unexpired
    · cases isAdded.symm.trans isExpiry
    · exact List.mem_append_left _ (copy.expired other at_ isReached isExpiry earlier member unexpired)
  · intro held member unexpired
    obtain member | member := List.mem_append.mp member
    · obtain ⟨start, isHeld, notExpired⟩ := copy.unexpired held member unexpired
      exact ⟨start, isHeld, notExpired.add isAdded⟩
    · cases List.mem_singleton.mp member
      exact ⟨index + 1, .inr ⟨index, rfl, isAdded⟩, fresh⟩
  · exact fun isLoaded held member => (copy.initially isLoaded held member).add isAdded

/-- A token that is held is expired by the next expiry, if that is not too early for it. -/
theorem Holds.expire (held : Holds history reached app tokens start rec) {at_ : String}
    (isExpiry : history.log[index]? = some (.expireTokens app at_)) (after : start ≤ index)
    (inOrder : InOrder history reached index (.expireTokens app at_)) :
    Holds history (fun other => other = index ∨ reached other) app
      (tokens.map (TokenRecord.expire at_)) start rec := by
  obtain ⟨member, notExpired⟩ | ⟨other, earlier, first, member⟩ := held
  · by_cases unexpired : rec.expiresAt = none
    · refine .inr ⟨index, at_, ⟨after, isExpiry, ?_⟩, List.mem_map_of_mem member⟩
      intro other afterStart before earlier isOther
      have isReached := inOrder.earlier other _ before isOther rfl
      exact notExpired unexpired other afterStart isReached earlier isOther
    · refine .inl ⟨?_, fun none => absurd none unexpired⟩
      rw [← expire_of_expiresAt unexpired]
      exact List.mem_map_of_mem member
  · refine .inr ⟨other, earlier, first, ?_⟩
    rw [← expire_of_expiresAt (expiresAt_expire earlier rec)]
    exact List.mem_map_of_mem member

/-- In the store, a token without an expiry was added and not expired since. -/
theorem addedAt_of_unexpired (accepted : history.Accepted) :
    ∀ count, ∀ rec ∈ (history.storeAt count).tokensFor app, rec.expiresAt = none →
      ∃ start ≤ count, AddedAt history app start rec ∧
        NotExpired history (· < count) app start := by
  intro count
  induction count with
  | zero =>
    intro rec member unexpired
    rw [storeAt_zero] at member
    exact ⟨0, le_rfl, .inl ⟨rfl, member⟩, fun _ _ before => absurd before (Nat.not_lt_zero _)⟩
  | succ count inductionHypothesis =>
    intro rec member unexpired
    have before (isRec : rec ∈ (history.storeAt count).tokensFor app)
        (notExpiry : ∀ at_, history.log[count]? ≠ some (.expireTokens app at_)) :
        ∃ start ≤ count + 1, AddedAt history app start rec ∧
          NotExpired history (· < count + 1) app start := by
      obtain ⟨start, atMost, isAdded, notExpired⟩ := inductionHypothesis rec isRec unexpired
      refine ⟨start, Nat.le_succ_of_le atMost, isAdded, notExpired.mono fun index at_ less isExpiry => ?_⟩
      obtain less | rfl := Nat.lt_succ_iff_lt_or_eq.mp less
      · exact less
      · exact absurd isExpiry (notExpiry at_)
    cases isWrite : history.log[count]? with
    | none =>
      rw [storeAt_succ_of_none isWrite] at member
      exact before member fun at_ isExpiry => nomatch isWrite.symm.trans isExpiry
    | some write =>
      rw [storeAt_succ isWrite, Tables.tokensFor_write (accepted count write isWrite)] at member
      by_cases elsewhere : write.cell = .tokens app
      · cases write with
        | putApp put => cases elsewhere
        | revokeApp name => cases elsewhere
        | addToken added =>
          rw [Write.tokensOf, if_pos (Cell.tokens.inj elsewhere)] at member
          obtain member | member := List.mem_append.mp member
          · exact before member fun at_ isExpiry => nomatch isWrite.symm.trans isExpiry
          · obtain rfl := List.mem_singleton.mp member
            refine ⟨count + 1, le_rfl, .inr ⟨count, rfl, isWrite⟩, fun index after less => ?_⟩
            exact absurd less (not_lt.mpr after)
        | expireTokens other at_ =>
          rw [Write.tokensOf, if_pos (Cell.tokens.inj elsewhere)] at member
          obtain ⟨earlier, -, rfl⟩ := List.mem_map.mp member
          exact absurd unexpired (expiresAt_expire at_ earlier)
      · rw [tokensOf_of_ne_cell elsewhere] at member
        refine before member fun at_ isExpiry => elsewhere ?_
        cases isWrite.symm.trans isExpiry
        rfl

theorem app_of_mem_tokensFor {tables : Tables Settings} (member : rec ∈ tables.tokensFor app) :
    rec.app = app :=
  of_decide_eq_true (List.mem_filter.mp member).2

/-- An expiry reaches the copy. -/
theorem TokensCopy.expire (copy : TokensCopy history reached loaded app tokens)
    (accepted : history.Accepted) {at_ : String}
    (isExpiry : history.log[index]? = some (.expireTokens app at_))
    (inOrder : InOrder history reached index (.expireTokens app at_))
    (knows : loaded ∨ ∀ rec ∈ (history.storeAt index).tokensFor app, rec.expiresAt = none →
      rec ∈ tokens) :
    TokensCopy history (fun other => other = index ∨ reached other) loaded app
      (tokens.map (TokenRecord.expire at_)) := by
  refine { added := ?_, expired := ?_, unexpired := ?_, initially := ?_ }
  · rintro other added (rfl | isReached) isAdded isApp
    · cases isExpiry.symm.trans isAdded
    · refine (copy.added other added isReached isAdded isApp).expire isExpiry ?_ inOrder
      refine Nat.succ_le_of_lt (lt_of_le_of_ne (not_lt.mp fun later => ?_) ?_)
      · exact inOrder.later other _ later isReached isAdded isApp.symm
      · rintro rfl
        cases isExpiry.symm.trans isAdded
  · rintro other earlier (rfl | isReached) isOther rec member unexpired
    · obtain rfl : at_ = earlier := by simpa using isExpiry.symm.trans isOther
      obtain isLoaded | known := knows
      swap
      · exact List.mem_map_of_mem (known rec member unexpired)
      obtain ⟨start, atMost, isAdded, notExpired⟩ :=
        addedAt_of_unexpired accepted other rec member unexpired
      have held : Holds history reached app tokens start rec := by
        obtain ⟨rfl, initial⟩ | ⟨index, rfl, isAdded⟩ := isAdded
        · exact copy.initially isLoaded rec initial
        · have isApp := app_of_mem_tokensFor member
          have isReached := inOrder.earlier index _ (Nat.lt_of_succ_le atMost) isAdded isApp
          exact copy.added index rec isReached isAdded isApp
      obtain ⟨member, -⟩ | ⟨first, firstAt, isFirst, member⟩ := held
      · exact List.mem_map_of_mem member
      · -- No expiry came between the addition and this one, so this is the first.
        have notEarlier : ¬first < other := fun less =>
          notExpired first isFirst.after less firstAt isFirst.isExpiry
        have notLater : ¬other < first := fun less => isFirst.first other atMost less at_ isExpiry
        obtain rfl : first = other := le_antisymm (not_lt.mp notLater) (not_lt.mp notEarlier)
        obtain rfl : at_ = firstAt := by simpa using isExpiry.symm.trans isFirst.isExpiry
        rw [← expire_of_expiresAt (expiresAt_expire at_ rec)]
        exact List.mem_map_of_mem member
    · rw [← expire_of_expiresAt (expiresAt_expire earlier rec)]
      exact List.mem_map_of_mem (copy.expired other earlier isReached isOther rec member unexpired)
  · intro rec member unexpired
    obtain ⟨before, -, rfl⟩ := List.mem_map.mp member
    exact absurd unexpired (expiresAt_expire at_ before)
  · intro isLoaded rec member
    exact (copy.initially isLoaded rec member).expire isExpiry (Nat.zero_le _) inOrder

/-- One more write reaches the copy, in order. -/
theorem TokensCopy.step (copy : TokensCopy history reached loaded app tokens)
    (accepted : history.Accepted) (isWrite : history.log[index]? = some write)
    (inOrder : InOrder history reached index write)
    (knows : ∀ at_, write = .expireTokens app at_ → loaded ∨
      ∀ rec ∈ (history.storeAt index).tokensFor app, rec.expiresAt = none → rec ∈ tokens) :
    TokensCopy history (fun other => other = index ∨ reached other) loaded app
      (write.tokensOf app tokens) := by
  by_cases elsewhere : write.cell = .tokens app
  · cases write with
    | putApp put => cases elsewhere
    | revokeApp name => cases elsewhere
    | addToken added =>
      obtain rfl := Cell.tokens.inj elsewhere
      rw [Write.tokensOf, if_pos rfl]
      exact copy.add isWrite rfl inOrder
    | expireTokens other at_ =>
      obtain rfl := Cell.tokens.inj elsewhere
      rw [Write.tokensOf, if_pos rfl]
      exact copy.expire accepted isWrite inOrder (knows at_ rfl)
  · exact copy.elsewhere isWrite elsewhere

/-- The store shows all its writes. -/
theorem tokensCopy_storeAt (accepted : history.Accepted) (count : Nat) :
    TokensCopy history (· < count) True app ((history.storeAt count).tokensFor app) := by
  induction count with
  | zero =>
    have none : ∀ index : Nat, ¬index < 0 := fun index => Nat.not_lt_zero index
    rw [storeAt_zero]
    exact
      { added := fun index _ before => absurd before (none index)
        expired := fun index _ before => absurd before (none index)
        unexpired := fun rec member _ =>
          ⟨0, .inl ⟨rfl, member⟩, fun index _ before => absurd before (none index)⟩
        initially := fun _ rec member =>
          .inl ⟨member, fun _ index _ before => absurd before (none index)⟩ }
  | succ count inductionHypothesis =>
    have reaches : ∀ other, other < count + 1 → other = count ∨ other < count := fun other before =>
      (Nat.lt_succ_iff_lt_or_eq.mp before).symm
    cases isWrite : history.log[count]? with
    | none =>
      rw [storeAt_succ_of_none isWrite]
      refine inductionHypothesis.mono fun other write before isOther _ => ?_
      obtain rfl | before := reaches other before
      · cases isWrite.symm.trans isOther
      · exact before
    | some write =>
      rw [storeAt_succ isWrite, Tables.tokensFor_write (accepted count write isWrite)]
      have next := inductionHypothesis.step accepted isWrite (inOrder_lt history count write)
        fun _ _ => .inl trivial
      exact next.mono fun other _ before _ _ => reaches other before

end TokensCopies

/-! ### A history that goes on -/

/-- A history has a later one as it was at some time. -/
structure Before (earlier later : History Settings) : Prop where
  initial : earlier.initial = later.initial
  log : earlier.log <+: later.log

theorem Before.storeAt {earlier : History Settings} (before : Before earlier history) {count : Nat}
    (atMost : count ≤ earlier.log.length) : earlier.storeAt count = history.storeAt count := by
  obtain ⟨rest, isLog⟩ := before.log
  rw [History.storeAt, History.storeAt, before.initial, ← isLog,
    List.take_append_of_le_length atMost]

theorem Before.get {earlier : History Settings} (before : Before earlier history)
    (isWrite : earlier.log[index]? = some write) : history.log[index]? = some write := by
  obtain ⟨rest, isLog⟩ := before.log
  rw [← isLog, List.getElem?_append_left (List.getElem?_eq_some_iff.mp isWrite).1]
  exact isWrite

theorem Before.get_of_lt {earlier : History Settings} (before : Before earlier history)
    (less : index < earlier.log.length) (isWrite : history.log[index]? = some write) :
    earlier.log[index]? = some write := by
  obtain ⟨rest, isLog⟩ := before.log
  rw [← isLog, List.getElem?_append_left less] at isWrite
  exact isWrite

variable {run : CacheRun Settings}

/-- An event leaves the history or adds to it a write that the store takes. -/
theorem log_step (run : CacheRun Settings) (event : CacheEvent Settings) : (run.step event).toHistory = run.toHistory ∨
    ∃ write, run.store.Accepts write ∧
      (run.step event).toHistory = { run.toHistory with log := run.log ++ [write] } := by
  cases event with
  | write write =>
    rw [CacheRun.step]
    split
    next accepted => exact .inr ⟨write, accepted, rfl⟩
    next => exact .inl rfl
  | reach index =>
    refine .inl ?_
    rw [CacheRun.step]
    split
    · split <;> rfl
    · rfl
  | warm => exact .inl rfl
  | list warm =>
    refine .inl ?_
    rw [CacheRun.step]
    split <;> rfl
  | read warm =>
    refine .inl ?_
    rw [CacheRun.step]
    split <;> rfl
  | install warm =>
    refine .inl ?_
    rw [CacheRun.step]
    split <;> rfl
  | abandon warm => exact .inl rfl

theorem before_step (run : CacheRun Settings) (event : CacheEvent Settings) :
    Before run.toHistory (run.step event).toHistory := by
  obtain same | ⟨write, -, same⟩ := log_step run event
  · rw [same]
    exact ⟨rfl, List.prefix_refl _⟩
  · rw [same]
    exact ⟨rfl, List.prefix_append _ _⟩

theorem before_runs (events : List (CacheEvent Settings)) :
    Before run.toHistory (run.runs events).toHistory := by
  induction events generalizing run with
  | nil => exact ⟨rfl, List.prefix_refl _⟩
  | cons event rest inductionHypothesis =>
    have first := before_step run event
    have others : Before (run.step event).toHistory _ := inductionHypothesis
    exact ⟨first.initial.trans others.initial, first.log.trans others.log⟩

theorem accepted_step (accepted : run.toHistory.Accepted) (event : CacheEvent Settings) :
    (run.step event).toHistory.Accepted := by
  obtain same | ⟨write, isAccepted, same⟩ := log_step run event
  · rwa [same]
  have before := before_step run event
  intro index added isAdded
  rw [same] at isAdded
  have isAdded : (run.log ++ [write])[index]? = some added := isAdded
  obtain less | last := Nat.lt_or_ge index run.log.length
  · rw [List.getElem?_append_left less] at isAdded
    rw [← before.storeAt less.le]
    exact accepted index added isAdded
  · rw [List.getElem?_append_right last] at isAdded
    have isLast : index - run.log.length < 1 := (List.getElem?_eq_some_iff.mp isAdded).1
    obtain rfl : index = run.log.length := by omega
    obtain rfl : write = added := by simpa using isAdded
    rw [← before.storeAt le_rfl]
    exact isAccepted

theorem accepted_new (initial : Tables Settings) : (CacheRun.new initial).toHistory.Accepted := by
  intro index write isWrite
  have none : (CacheRun.new initial).log[index]? = none := List.getElem?_nil
  cases none.symm.trans isWrite

theorem accepted_runs (accepted : run.toHistory.Accepted) (events : List (CacheEvent Settings)) :
    (run.runs events).toHistory.Accepted := by
  induction events generalizing run with
  | nil => exact accepted
  | cons event rest inductionHypothesis => exact inductionHypothesis (accepted_step accepted event)

/-! ### What a warm-up has read -/

/-- The applications were read after so many writes, the tokens later; those of applications that
were not there are not read. -/
structure Snapshot (history : History Settings) (listed : Nat) (apps : List (GatewayApp Settings))
    (tokens : Members (List TokenRecord)) (names : List String) (readAt : Cell → Nat) : Prop where
  isListed : apps = (history.storeAt listed).listApps
  appReadAt : ∀ name, readAt (.app name) = listed
  after : ∀ cell, listed ≤ readAt cell
  amongApps : names ⊆ apps.map GatewayApp.name
  isRead : ∀ name ∈ apps.map GatewayApp.name, name ∈ names ∨
    tokens.get name = some ((history.storeAt (readAt (.tokens name))).tokensFor name)
  others : ∀ name, name ∉ apps.map GatewayApp.name →
    tokens.get name = none ∧ readAt (.tokens name) = listed

variable {listed : Nat} {apps : List (GatewayApp Settings)} {tokens : Members (List TokenRecord)}
  {names : List String} {readAt : Cell → Nat}

theorem snapshot_list (history : History Settings) (listed : Nat) :
    Snapshot history listed (history.storeAt listed).listApps []
      ((history.storeAt listed).listApps.map GatewayApp.name) (fun _ => listed) where
  isListed := rfl
  appReadAt := fun _ => rfl
  after := fun _ => le_rfl
  amongApps := List.Subset.refl _
  isRead := fun _ member => .inl member
  others := fun _ _ => ⟨rfl, rfl⟩

theorem Snapshot.read {name : String} {count : Nat}
    (snapshot : Snapshot history listed apps tokens (name :: names) readAt) (later : listed ≤ count) :
    Snapshot history listed apps (tokens.set name ((history.storeAt count).tokensFor name)) names
      (Function.update readAt (.tokens name) count) where
  isListed := snapshot.isListed
  appReadAt := by
    intro other
    have different : Cell.app other ≠ .tokens name := nofun
    rw [Function.update_of_ne different]
    exact snapshot.appReadAt other
  after := by
    intro cell
    rw [Function.update_apply]
    split
    · exact later
    · exact snapshot.after cell
  amongApps := fun _ member => snapshot.amongApps (List.mem_cons_of_mem _ member)
  isRead := by
    intro other member
    by_cases same : other = name
    · subst same
      refine .inr ?_
      rw [Members.get_set, if_pos rfl, Function.update_self]
    · refine (snapshot.isRead other member).imp (fun inNames => ?_) fun isRead => ?_
      · exact (List.mem_cons.mp inNames).resolve_left same
      · rw [Members.get_set, if_neg same,
          Function.update_of_ne fun equal => same (Cell.tokens.inj equal)]
        exact isRead
  others := by
    intro other absent
    have same : other ≠ name := fun equal => absent (equal ▸ snapshot.amongApps List.mem_cons_self)
    rw [Members.get_set, if_neg same,
      Function.update_of_ne fun equal => same (Cell.tokens.inj equal)]
    exact snapshot.others other absent

/-- The list of the applications, put into a map, is the table. -/
theorem map_listApps (tables : Tables Settings) :
    (tables.listApps.map fun app => (app.name, app)) = tables.apps := by
  rw [Tables.listApps, List.map_map]
  refine (List.map_congr_left fun field member => ?_).trans (List.map_id tables.apps)
  exact Prod.ext (tables.named field member) rfl

/-- An application that is not listed has no tokens. -/
theorem tokensFor_of_not_listed {tables : Tables Settings} {name : String}
    (absent : name ∉ tables.listApps.map GatewayApp.name) : tables.tokensFor name = [] := by
  refine List.filter_eq_nil_iff.mpr fun token member isToken => absent ?_
  have same : token.app = name := of_decide_eq_true isToken
  obtain ⟨app, isApp⟩ := Option.isSome_iff_exists.mp (tables.owned token member)
  have field := Members.mem_of_get isApp
  refine List.mem_map.mpr ⟨app, List.mem_map.mpr ⟨_, field, rfl⟩, ?_⟩
  exact (tables.named _ field).trans same

variable {reached : Nat → Prop} {loaded : Prop} {name : String}

/-- A warm-up that has read everything after the writes that count has a copy. -/
theorem Snapshot.appCopy (snapshot : Snapshot history listed apps tokens [] readAt)
    (accepted : history.Accepted)
    (read : ∀ index write, reached index → history.log[index]? = some write →
      index < readAt write.cell) :
    AppCopy history reached loaded name
      (Members.get (apps.map fun app => (app.name, app)) name) := by
  rw [snapshot.isListed, map_listApps]
  have copy : AppCopy history reached True name ((history.storeAt listed).getApp name) :=
    (appCopy_storeAt accepted listed).mono fun index write isReached isWrite isCell => by
      have less := read index write isReached isWrite
      rwa [isCell, snapshot.appReadAt] at less
  exact { copy with isThere := fun _ => copy.isThere trivial }

theorem Snapshot.tokensCopy (snapshot : Snapshot history listed apps tokens [] readAt)
    (accepted : history.Accepted)
    (read : ∀ index write, reached index → history.log[index]? = some write →
      index < readAt write.cell) :
    TokensCopy history reached loaded name ((tokens.get name).getD []) := by
  have isRead : (tokens.get name).getD [] =
      (history.storeAt (readAt (.tokens name))).tokensFor name := by
    by_cases isListed : name ∈ apps.map GatewayApp.name
    · obtain waits | isRead := snapshot.isRead name isListed
      · cases waits
      · rw [isRead]
        rfl
    · obtain ⟨none, at_⟩ := snapshot.others name isListed
      rw [none, at_, tokensFor_of_not_listed (snapshot.isListed ▸ isListed)]
      rfl
  rw [isRead]
  have copy : TokensCopy history reached True name
      ((history.storeAt (readAt (.tokens name))).tokensFor name) :=
    (tokensCopy_storeAt accepted (readAt (.tokens name))).mono
      fun index write isReached isWrite isCell => isCell ▸ read index write isReached isWrite
  exact { copy with initially := fun _ => copy.initially trivial }

/-! ### Orderly runs -/

namespace CacheRun

/-- What a warm-up in progress knows: unless a write has reached the cache since it began, all
that have reached it came before the applications were read. -/
def WarmOk (history : History Settings) (run : CacheRun Settings) : Warm Settings → Prop
  | .listing seen => seen ≤ run.cache.version
  | .reading seen apps tokens names readAt => seen ≤ run.cache.version ∧
      ∃ listed ≤ run.log.length, Snapshot history listed apps tokens names readAt ∧
        (run.cache.version = seen → ∀ index ∈ run.reached, index < listed)

/-- What holds in every run, in order or not. -/
structure Tracks (history : History Settings) (run : CacheRun Settings) : Prop where
  before : Before run.toHistory history
  inLog : ∀ index ∈ run.reached, index < run.log.length
  warms : ∀ warm ∈ run.warms, WarmOk history run warm

theorem tracks_new {initial : Tables Settings}
    (before : Before (CacheRun.new initial).toHistory history) :
    Tracks history (CacheRun.new initial) where
  before := before
  inLog := fun _ member => nomatch member
  warms := fun _ member => nomatch member

/-- The store is that of the history. -/
theorem Tracks.store (tracks : Tracks history run) :
    run.store = history.storeAt run.log.length :=
  tracks.before.storeAt le_rfl

theorem WarmOk.log {added : Write Settings} {warm : Warm Settings} (ok : WarmOk history run warm) :
    WarmOk history { run with log := run.log ++ [added] } warm := by
  cases warm with
  | listing seen => exact ok
  | reading seen apps tokens names readAt =>
    obtain ⟨atMost, listed, within, snapshot, sees⟩ := ok
    refine ⟨atMost, listed, within.trans ?_, snapshot, sees⟩
    rw [List.length_append]
    exact Nat.le_add_right _ _

theorem Tracks.log (tracks : Tracks history run) {added : Write Settings}
    (before : Before { run.toHistory with log := run.log ++ [added] } history) :
    Tracks history { run with log := run.log ++ [added] } where
  before := before
  inLog := by
    intro index member
    rw [List.length_append]
    exact Nat.lt_add_right _ (tracks.inLog index member)
  warms := fun warm member => (tracks.warms warm member).log

theorem loaded_write (cache : CachedGatewayStore Settings) (write : Write Settings) :
    (cache.write write).loaded = cache.loaded := by
  cases write <;> rfl

theorem version_write (cache : CachedGatewayStore Settings) (write : Write Settings) :
    (cache.write write).version = cache.version + 1 := by
  cases write <;> rfl

/-- After a write has reached the cache, no warm-up that had begun has seen all. -/
theorem WarmOk.reach {warm : Warm Settings} (ok : WarmOk history run warm) (index : Nat)
    (write : Write Settings) :
    WarmOk history { run with reached := index :: run.reached, cache := run.cache.write write }
      warm := by
  have newer : run.cache.version ≤ (run.cache.write write).version := by
    rw [version_write]
    exact Nat.le_succ _
  cases warm with
  | listing seen => exact (show seen ≤ run.cache.version from ok).trans newer
  | reading seen apps tokens names readAt =>
    obtain ⟨atMost, listed, within, snapshot, -⟩ := ok
    refine ⟨atMost.trans newer, listed, within, snapshot, fun same => ?_⟩
    have same : run.cache.version + 1 = seen := (version_write _ _).symm.trans same
    omega

theorem Tracks.reach (tracks : Tracks history run) (isWrite : run.log[index]? = some write) :
    Tracks history
      { run with reached := index :: run.reached, cache := run.cache.write write } where
  before := tracks.before
  inLog := by
    intro other member
    obtain rfl | member := List.mem_cons.mp member
    · exact (List.getElem?_eq_some_iff.mp isWrite).1
    · exact tracks.inLog other member
  warms := fun warm member => (tracks.warms warm member).reach index write

theorem Tracks.setWarm (tracks : Tracks history run) {warm : Warm Settings}
    (ok : WarmOk history run warm) (index : Nat) :
    Tracks history { run with warms := run.warms.set index warm } :=
  { tracks with
    warms := fun other member => by
      obtain member | rfl := List.mem_or_eq_of_mem_set member
      · exact tracks.warms other member
      · exact ok }

/-- A warm-up depends on the version of the cache only. -/
theorem WarmOk.withCache {warm : Warm Settings} (ok : WarmOk history run warm)
    {cache : CachedGatewayStore Settings} (same : cache.version = run.cache.version)
    (warms : List (Warm Settings)) :
    WarmOk history { run with cache := cache, warms := warms } warm := by
  cases warm with
  | listing seen => exact (show seen ≤ run.cache.version from ok).trans same.ge
  | reading seen apps tokens names readAt =>
    obtain ⟨atMost, listed, within, snapshot, sees⟩ := ok
    exact ⟨atMost.trans same.ge, listed, within, snapshot, fun isSeen => sees (same.symm.trans isSeen)⟩

theorem version_installed (cache : CachedGatewayStore Settings) (seen : Nat)
    (apps : List (GatewayApp Settings)) (tokens : Members (List TokenRecord)) :
    (installed cache seen apps tokens).version = cache.version := by
  unfold installed
  split <;> rfl

theorem Tracks.step (tracks : Tracks history run) (event : CacheEvent Settings)
    (before : Before (run.step event).toHistory history) : Tracks history (run.step event) := by
  cases event with
  | write write =>
    rw [CacheRun.step] at before ⊢
    split at before
    next isAccepted =>
      rw [if_pos isAccepted]
      exact tracks.log before
    next isRefused =>
      rw [if_neg isRefused]
      exact tracks
  | reach index =>
    rw [CacheRun.step]
    split
    next write isWrite =>
      split
      · exact tracks
      · exact tracks.reach isWrite
    next => exact tracks
  | warm =>
    refine { tracks with warms := fun warm member => ?_ }
    obtain member | member := List.mem_append.mp member
    · exact (tracks.warms warm member).withCache rfl _
    · cases List.mem_singleton.mp member
      exact Nat.le_refl run.cache.version
  | list warm =>
    rw [CacheRun.step]
    split
    next seen isWarm =>
      have atMost : seen ≤ run.cache.version := tracks.warms _ (List.mem_of_getElem? isWarm)
      have ok : WarmOk history run (.reading seen run.store.listApps []
          (run.store.listApps.map GatewayApp.name) fun _ => run.log.length) := by
        rw [tracks.store]
        exact ⟨atMost, run.log.length, le_rfl, snapshot_list history run.log.length,
          fun _ => tracks.inLog⟩
      exact tracks.setWarm ok warm
    next => exact tracks
  | read warm =>
    rw [CacheRun.step]
    split
    next seen apps tokens name names readAt isWarm =>
      obtain ⟨atMost, listed, within, snapshot, sees⟩ :=
        tracks.warms _ (List.mem_of_getElem? isWarm)
      have ok : WarmOk history run (.reading seen apps
          (tokens.set name (run.store.tokensFor name)) names
          (Function.update readAt (.tokens name) run.log.length)) := by
        rw [tracks.store]
        exact ⟨atMost, listed, within, snapshot.read within, sees⟩
      exact tracks.setWarm ok warm
    next => exact tracks
  | install warm =>
    rw [CacheRun.step]
    split
    next seen apps tokens readAt isWarm =>
      exact
        { tracks with
          warms := fun other member =>
            (tracks.warms other (List.mem_of_mem_eraseIdx member)).withCache
              (version_installed ..) _ }
    next => exact tracks
  | abandon warm =>
    exact
      { tracks with
        warms := fun other member =>
          (tracks.warms other (List.mem_of_mem_eraseIdx member)).withCache rfl _ }

theorem Tracks.runs (tracks : Tracks history run) (events : List (CacheEvent Settings))
    (before : Before (run.runs events).toHistory history) : Tracks history (run.runs events) := by
  induction events generalizing run with
  | nil => exact tracks
  | cons event rest inductionHypothesis =>
    have others : Before (run.step event).toHistory ((run.step event).runs rest).toHistory :=
      before_runs rest
    have isBefore : Before (run.step event).toHistory history :=
      ⟨others.initial.trans before.initial, others.log.trans before.log⟩
    exact inductionHypothesis (tracks.step event isBefore) before

/-- What holds in an orderly run: the cache is a copy. -/
structure Invariant (history : History Settings) (run : CacheRun Settings) : Prop
    extends Tracks history run where
  ordered : ∀ earlier later before after, earlier < later → later ∈ run.reached →
    history.log[earlier]? = some before → history.log[later]? = some after →
      Conflict before after → earlier ∈ run.reached
  app : ∀ name, AppCopy history (· ∈ run.reached) (run.cache.loaded = true) name
    (run.cache.getApp name)
  tokens : ∀ app, TokensCopy history (· ∈ run.reached) (run.cache.loaded = true) app
    (run.cache.tokensFor app)

theorem invariant_new {initial : Tables Settings}
    (before : Before (CacheRun.new initial).toHistory history) :
    Invariant history (CacheRun.new initial) :=
  { tracks_new before with
    ordered := fun _ _ _ _ _ member => nomatch member
    app := fun _ =>
      { showsApp := fun _ _ member => nomatch member
        isThere := fun loaded => nomatch loaded }
    tokens := fun _ =>
      { added := fun _ _ member => nomatch member
        expired := fun _ _ member => nomatch member
        unexpired := fun _ member => nomatch member
        initially := fun loaded => nomatch loaded } }

theorem Invariant.reach (invariant : Invariant history run) (accepted : history.Accepted)
    (isWrite : run.log[index]? = some write) (fresh : index ∉ run.reached)
    (orderly : run.Orderly (.reach index)) :
    Invariant history
      { run with reached := index :: run.reached, cache := run.cache.write write } := by
  have isLogged := invariant.before.get isWrite
  have less : index < run.log.length := (List.getElem?_eq_some_iff.mp isWrite).1
  obtain ⟨ordered, knows⟩ := orderly write isWrite fresh
  have inOrder : InOrder history (· ∈ run.reached) index write :=
    { earlier := fun other before less' isBefore conflict =>
        ordered other before less' (invariant.before.get_of_lt (less'.trans less) isBefore) conflict
      later := fun other after later isReached isAfter conflict =>
        fresh (invariant.ordered index other write after later isReached isLogged isAfter conflict) }
  have isStore := invariant.before.storeAt less.le
  have reaches : ∀ other, other ∈ index :: run.reached → other = index ∨ other ∈ run.reached :=
    fun other member => List.mem_cons.mp member
  refine { invariant.toTracks.reach isWrite with ordered := ?_, app := ?_, tokens := ?_ }
  · intro earlier later before after less' isReached isBefore isAfter conflict
    refine List.mem_cons_of_mem _ ?_
    obtain rfl | isReached := reaches later isReached
    · obtain rfl := Option.some.inj (isLogged.symm.trans isAfter)
      exact inOrder.earlier earlier before less' isBefore conflict
    · exact invariant.ordered earlier later before after less' isReached isBefore isAfter conflict
  · intro name
    rw [loaded_write, CachedGatewayStore.getApp_write]
    have next := (invariant.app name).step isLogged inOrder fun isRevoke isThere => by
      subst isRevoke
      obtain isLoaded | known := knows
      · exact (invariant.app name).knows isLoaded accepted inOrder isThere
      · rw [← isStore] at isThere
        exact known isThere
    exact next.mono fun other _ isReached _ _ => reaches other isReached
  · intro app
    rw [loaded_write, CachedGatewayStore.tokensFor_write]
    have next := (invariant.tokens app).step accepted isLogged inOrder fun at_ isExpiry => by
      subst isExpiry
      refine knows.imp_right fun known => ?_
      rw [← isStore]
      exact known
    exact next.mono fun other _ isReached _ _ => reaches other isReached

theorem Invariant.install (invariant : Invariant history run) (accepted : history.Accepted)
    {warm seen : Nat} (isWarm : run.warms[warm]? = some (.reading seen apps tokens [] readAt))
    (orderly : run.Orderly (.install warm))
    (tracks : Tracks history { run with
      warms := run.warms.eraseIdx warm
      cache := installed run.cache seen apps tokens }) :
    Invariant history { run with
      warms := run.warms.eraseIdx warm
      cache := installed run.cache seen apps tokens } := by
  obtain ⟨-, listed, -, snapshot, sees⟩ := invariant.warms _ (List.mem_of_getElem? isWarm)
  unfold installed at tracks ⊢
  split
  next skips =>
    rw [if_pos skips] at tracks
    exact { invariant with toTracks := tracks }
  next installs =>
    rw [if_neg installs] at tracks
    have read : ∀ index write, index ∈ run.reached → history.log[index]? = some write →
        index < readAt write.cell := by
      intro index write isReached isWrite
      by_cases same : run.cache.version = seen
      · exact (sees same index isReached).trans_le (snapshot.after _)
      · have notLoaded : run.cache.loaded = false := by
          by_contra isLoaded
          exact installs ⟨same, Bool.not_eq_false _ ▸ isLoaded⟩
        have isLogged := invariant.before.get_of_lt (invariant.inLog index isReached) isWrite
        exact orderly seen apps tokens readAt isWarm notLoaded index write isReached isLogged
    exact
      { tracks with
        ordered := invariant.ordered
        app := fun name => snapshot.appCopy accepted read
        tokens := fun app => snapshot.tokensCopy accepted read }

/-- An orderly event keeps the invariant. -/
theorem Invariant.step (invariant : Invariant history run) (accepted : history.Accepted)
    (event : CacheEvent Settings) (before : Before (run.step event).toHistory history)
    (orderly : run.Orderly event) : Invariant history (run.step event) := by
  have tracks := invariant.toTracks.step event before
  cases event with
  | write write =>
    rw [CacheRun.step] at tracks ⊢
    split at tracks
    next isAccepted =>
      rw [if_pos isAccepted]
      exact { invariant with toTracks := tracks }
    next isRefused =>
      rw [if_neg isRefused]
      exact invariant
  | reach index =>
    rw [CacheRun.step]
    split
    next write isWrite =>
      split
      · exact invariant
      next fresh => exact invariant.reach accepted isWrite fresh orderly
    next => exact invariant
  | warm => exact { invariant with toTracks := tracks }
  | list warm =>
    rw [CacheRun.step] at tracks ⊢
    split at tracks
    next isWarm =>
      exact { invariant with toTracks := tracks }
    next => exact invariant
  | read warm =>
    rw [CacheRun.step] at tracks ⊢
    split at tracks
    next isWarm =>
      exact { invariant with toTracks := tracks }
    next => exact invariant
  | install warm =>
    rw [CacheRun.step] at tracks ⊢
    split at tracks
    next isWarm =>
      exact invariant.install accepted isWarm orderly tracks
    next => exact invariant
  | abandon warm => exact { invariant with toTracks := tracks }

theorem Invariant.runs (invariant : Invariant history run) (accepted : history.Accepted)
    (events : List (CacheEvent Settings)) (before : Before (run.runs events).toHistory history)
    (orderly : OrderlyRun run events) : Invariant history (run.runs events) := by
  induction events generalizing run with
  | nil => exact invariant
  | cons event rest inductionHypothesis =>
    have others : Before (run.step event).toHistory ((run.step event).runs rest).toHistory :=
      before_runs rest
    have isBefore : Before (run.step event).toHistory history :=
      ⟨others.initial.trans before.initial, others.log.trans before.log⟩
    exact inductionHypothesis (invariant.step accepted event isBefore orderly.1) before orderly.2

/-- What a copy shows, a read shows. -/
theorem Invariant.shows (invariant : Invariant run.toHistory run) (isReached : index ∈ run.reached)
    (isWrite : run.log[index]? = some write) : run.Shows index write := by
  cases write with
  | putApp app => exact (invariant.app app.name).showsApp index _ isReached isWrite rfl
  | revokeApp name => exact (invariant.app name).showsApp index _ isReached isWrite rfl
  | addToken rec =>
    obtain ⟨member, -⟩ | ⟨later, at_, first, member⟩ :=
      (invariant.tokens rec.app).added index rec isReached isWrite rfl
    · exact ⟨rec, member, .inl rfl⟩
    · have since := writtenSince_self first.isExpiry (Nat.le_of_succ_le first.after)
      exact ⟨rec.expire at_, member, .inr ⟨at_, since, rfl⟩⟩
  | expireTokens app at_ =>
    intro rec member unexpired
    refine ⟨(invariant.tokens app).expired index at_ isReached isWrite rec member unexpired, ?_⟩
    intro inCache
    obtain ⟨start, isAdded, notExpired⟩ := (invariant.tokens app).unexpired rec inCache unexpired
    have later : ¬start ≤ index := fun atMost => notExpired index atMost isReached at_ isWrite
    obtain ⟨rfl, -⟩ | ⟨added, rfl, isAdded⟩ := isAdded
    · exact absurd (Nat.zero_le _) later
    · exact writtenSince_self isAdded (Nat.lt_succ_iff.mp (not_le.mp later))

end CacheRun

/-- In every orderly run of a cache, every later read shows a write that has reached the cache, or a
newer one to the same record. -/
theorem reads_showWrites (initial : Tables Settings) (events : List (CacheEvent Settings))
    (orderly : OrderlyRun (.new initial) events) :
    let run := (CacheRun.new initial).runs events
    ∀ index ∈ run.reached, ∀ write, run.log[index]? = some write → run.Shows index write := by
  intro run index isReached write isWrite
  have accepted : run.toHistory.Accepted :=
    accepted_runs (accepted_new initial) events
  have invariant : Invariant run.toHistory run :=
    (invariant_new (before_runs events)).runs accepted events ⟨rfl, List.prefix_refl _⟩ orderly
  exact invariant.shows isReached isWrite

/-! ### A revocation around the first warm-up -/

namespace FirstWarm

def web : GatewayApp Unit := ⟨"web", (), .active, "2026-10-19T00:00:00.000Z", none⟩

def initial : Tables Unit where
  apps := [("web", web)]
  tokens := []
  named := by
    rintro field (_ | ⟨_, ⟨⟩⟩)
    rfl
  owned := fun _ member => nomatch member

/-- The warm-up ends before the application is revoked. -/
def warmFirst : List (CacheEvent Unit) :=
  [.warm, .list 0, .read 0, .install 0, .write (.revokeApp "web"), .reach 0]

/-- The warm-up ends after the application was revoked. -/
def revokeFirst : List (CacheEvent Unit) :=
  [.warm, .list 0, .read 0, .write (.revokeApp "web"), .reach 0, .install 0]

end FirstWarm

open FirstWarm in
theorem reads_showWrites_warmFirst :
    ((CacheRun.new initial).runs warmFirst).Shows 0 (.revokeApp "web") ∧
      (((CacheRun.new initial).runs warmFirst).cache.getApp "web").map GatewayApp.state =
        some .revoked := by
  have orderly : OrderlyRun (.new initial) warmFirst := by
    refine ⟨trivial, trivial, trivial, ?_, trivial, ?_, trivial⟩
    · exact fun _ _ _ _ _ _ index _ isReached => nomatch isReached
    · exact fun _ _ _ => ⟨fun earlier _ before => absurd before (Nat.not_lt_zero earlier), .inl rfl⟩
  exact ⟨reads_showWrites initial warmFirst orderly 0 List.mem_cons_self _ rfl, by decide⟩

open FirstWarm in
/-- The first warm-up has read an active application before it was revoked and installs that
after the revocation has reached the cache. -/
theorem reads_missWrite :
    ¬∀ (initial : Tables Unit) (events : List (CacheEvent Unit)),
      let run := (CacheRun.new initial).runs events
      ∀ index ∈ run.reached, ∀ write, run.log[index]? = some write → run.Shows index write := by
  intro shows_
  have isThere : (((CacheRun.new initial).runs revokeFirst).storeAt 0).getApp "web" ≠ none := by
    decide
  obtain ⟨read, isRead, put | revoked⟩ :=
    shows_ initial revokeFirst 0 List.mem_cons_self (.revokeApp "web") rfl isThere
  · obtain ⟨app, ⟨_ | later, -, isPut⟩, -⟩ := put
    · cases isPut
    · cases isPut
  · obtain rfl : web = read := Option.some.inj isRead
    exact nomatch revoked.2

end AiSwitcher.Gateway
