/-
This file has what merging does to each entry of a vault, what a written file holds
of its entries, and what the tests on whole files say of one entry.
-/

import AiSwitcher.Identities.Pool.PiAdapter

namespace AiSwitcher.Pi

open JavaScript Interleaving Pool GrantFile

/-! ### Merging -/

section Merging

variable {runtime : TokenRuntime}

theorem oauthEntry_eq_some {grant : Option Object} {key : String} {entry : Object} :
    oauthEntry grant key = some entry ↔
      (grant.bind fun fields => fields.get key) = some (.obj entry) ∧ isOauth entry = true := by
  rw [oauthEntry, Option.filter_eq_some_iff, Option.bind_eq_some_iff]
  constructor
  · rintro ⟨⟨value, has, isObject⟩, oauth⟩
    cases value with
    | obj fields =>
      cases isObject
      exact ⟨has, oauth⟩
    | _ => cases isObject
  · rintro ⟨has, oauth⟩
    exact ⟨⟨_, has, rfl⟩, oauth⟩

theorem mem_objectEntries {grant : Object} {key : String} {entry : Object} :
    (key, entry) ∈ objectEntries grant ↔ grant.get key = some (.obj entry) := by
  rw [objectEntries, List.mem_filterMap]
  constructor
  · rintro ⟨⟨other, value⟩, member, found⟩
    cases value with
    | obj fields =>
      cases found
      exact Members.mem_entries.mp member
    | _ => cases found
  · exact fun has => ⟨(key, .obj entry), Members.mem_entries.mpr has, rfl⟩

/-- The entry has gone into the vault over the member's own. -/
structure Moved (runtime : TokenRuntime) (owner : Object) (mode : WriteBackMode)
    (others : List Object) (key : String) (own entry : Object) : Prop where
  has : oauthEntry (some owner) key = some own
  oauth : isOauth entry = true
  newer : isNewer entry own = true
  different : sameTokens entry own = false
  capture : mode = .capture → key = kimiKey
  unshared : key ≠ kimiKey → sharedChain key entry others = .ok false
  claimed : key ≠ kimiKey → foreignClaim runtime own entry = false

variable {owner : Object} {mode : WriteBackMode} {others : List Object}

/-- The step of a merge: the vault is as it was, or the entry has moved. -/
theorem mergeEntry_cases {merging merged : Merging} {key : String} {entry : Object}
    (ended : mergeEntry runtime owner mode others merging key entry = .ok merged) :
    (merged.next = merging.next ∧ merged.changed = merging.changed) ∨
      ∃ own, Moved runtime owner mode others key own entry ∧ merged.changed = true ∧
        merged.next = merging.next.set key (.obj (own.spread entry)) := by
  unfold mergeEntry at ended
  by_cases captured : mode = .capture ∧ key ≠ kimiKey
  · rw [if_pos captured] at ended
    cases ended
    exact Or.inl ⟨rfl, rfl⟩
  rw [if_neg captured] at ended
  cases has : oauthEntry (some owner) key with
  | none =>
    rw [has] at ended
    cases ended
    exact Or.inl ⟨rfl, rfl⟩
  | some own =>
    rw [has] at ended
    dsimp only at ended
    by_cases stays : ¬ isOauth entry ∨ ¬ isNewer entry own ∨ sameTokens entry own
    · rw [if_pos stays] at ended
      cases ended
      exact Or.inl ⟨rfl, rfl⟩
    rw [if_neg stays] at ended
    have moved : (key ≠ kimiKey → sharedChain key entry others = .ok false) →
        (key ≠ kimiKey → foreignClaim runtime own entry = false) →
        Moved runtime owner mode others key own entry := by
      intro unshared claimed
      rw [not_or, not_or, not_not, not_not, Bool.not_eq_true] at stays
      exact ⟨has, stays.1, stays.2.1, stays.2.2, fun isCapture => by_contra fun other =>
        captured ⟨isCapture, other⟩, unshared, claimed⟩
    by_cases kimi : key = kimiKey
    · rw [if_pos kimi] at ended
      cases ended
      exact Or.inr ⟨own, moved (absurd kimi) (absurd kimi), rfl, rfl⟩
    · rw [if_neg kimi] at ended
      cases shared : sharedChain key entry others with
      | error message => rw [shared] at ended; cases ended
      | ok isShared =>
        rw [shared] at ended
        change (if foreignClaim runtime own entry ∨ isShared then _ else _) = _ at ended
        by_cases kept : foreignClaim runtime own entry ∨ isShared
        · rw [if_pos kept] at ended
          cases ended
          exact Or.inl ⟨rfl, rfl⟩
        · rw [if_neg kept] at ended
          cases ended
          rw [not_or, Bool.not_eq_true, Bool.not_eq_true] at kept
          exact Or.inr ⟨own, moved (fun _ => kept.2 ▸ shared) (fun _ => kept.1), rfl, rfl⟩

/-- What a merge has done to each entry of the vault. -/
theorem mergeEntries_get {entries : Members Object} :
    ∀ {merging merged : Merging},
      mergeEntries runtime owner mode others merging entries = .ok merged →
      ((merged.changed = true ∨ merged.next = merging.next) ∧
        (merging.changed = true → merged.changed = true)) ∧
      ∀ key, merged.next.get key = merging.next.get key ∨
        ∃ own entry, (key, entry) ∈ entries ∧ Moved runtime owner mode others key own entry ∧
          merged.changed = true ∧ merged.next.get key = some (.obj (own.spread entry)) := by
  induction entries with
  | nil =>
    intro merging merged ended
    cases ended
    exact ⟨⟨Or.inr rfl, id⟩, fun _ => Or.inl rfl⟩
  | cons first rest inductionHypothesis =>
    intro merging merged ended
    obtain ⟨name, entry⟩ := first
    unfold mergeEntries at ended
    cases step : mergeEntry runtime owner mode others merging name entry with
    | error message => rw [step] at ended; cases ended
    | ok next =>
      rw [step] at ended
      obtain ⟨⟨changes, grows⟩, rest⟩ := inductionHypothesis ended
      rcases mergeEntry_cases step with ⟨sameNext, sameChanged⟩ | ⟨own, moved, changed, moves⟩
      · rw [sameNext] at changes
        refine ⟨⟨changes, sameChanged ▸ grows⟩, fun key => ?_⟩
        rcases rest key with same | ⟨own, entry, member, moved⟩
        · exact Or.inl (same.trans (congrArg (fun next : Object => next.get key) sameNext))
        · exact Or.inr ⟨own, entry, List.mem_cons_of_mem _ member, moved⟩
      · refine ⟨⟨Or.inl (grows changed), fun _ => grows changed⟩, fun key => ?_⟩
        rcases rest key with same | ⟨own, entry, member, moved⟩
        · rw [moves, Members.get_set] at same
          by_cases here : key = name
          · rw [if_pos here] at same
            subst here
            exact Or.inr ⟨own, entry, List.mem_cons_self, moved, grows changed, same⟩
          · rw [if_neg here] at same
            exact Or.inl same
        · exact Or.inr ⟨own, entry, List.mem_cons_of_mem _ member, moved⟩

/-- A newer entry of the account itself moves. -/
theorem mergeEntries_kimi {own entry : Object} (moved : Moved runtime owner mode others kimiKey own
    entry) {entries : Members Object} :
    ∀ {merging merged : Merging}, (kimiKey, entry) ∈ entries →
      mergeEntries runtime owner mode others merging entries = .ok merged →
      merged.changed = true ∧ ∃ last, (kimiKey, last) ∈ entries ∧
        merged.next.get kimiKey = some (.obj (own.spread last)) := by
  induction entries with
  | nil => exact fun member => nomatch member
  | cons first rest inductionHypothesis =>
    intro merging merged member ended
    obtain ⟨name, value⟩ := first
    unfold mergeEntries at ended
    cases step : mergeEntry runtime owner mode others merging name value with
    | error message => rw [step] at ended; cases ended
    | ok next =>
      rw [step] at ended
      by_cases later : (kimiKey, entry) ∈ rest
      · obtain ⟨changed, last, isLast, result⟩ := inductionHypothesis later ended
        exact ⟨changed, last, List.mem_cons_of_mem _ isLast, result⟩
      · obtain same | inRest := List.mem_cons.mp member
        swap
        · exact absurd inRest later
        injection same with sameName sameEntry
        subst sameName sameEntry
        have moves : next = merging.move kimiKey own entry := by
          have stays : ¬ (¬ isOauth entry ∨ ¬ isNewer entry own ∨ sameTokens entry own) := by
            rw [moved.oauth, moved.newer, moved.different]
            decide
          rw [mergeEntry, if_neg (fun captured => captured.2 rfl), moved.has] at step
          dsimp only at step
          rw [if_neg stays, if_pos rfl] at step
          exact (Except.ok.inj step).symm
        obtain ⟨⟨-, grows⟩, rest⟩ := mergeEntries_get ended
        refine ⟨grows (by rw [moves]; rfl), ?_⟩
        rcases rest kimiKey with same | ⟨other, last, isLast, otherMoved, -, result⟩
        · refine ⟨entry, List.mem_cons_self, same.trans ?_⟩
          rw [moves, Merging.move, Members.get_set, if_pos rfl]
        · have sameOwn := otherMoved.has
          rw [moved.has] at sameOwn
          cases sameOwn
          exact ⟨last, List.mem_cons_of_mem _ isLast, result⟩

/-- The vault after a merge. -/
def mergedVault (owner : Object) (merge : Option GrantMerge) : Object :=
  (merge.bind fun merge => merge.next).getD owner

theorem newerInto_spec {pool : Object} {merge : Option GrantMerge}
    (ended : newerInto runtime (some owner) pool mode others = .ok merge) :
    (∀ key, (mergedVault owner merge).get key = owner.get key ∨
      ∃ own entry, oauthEntry (some pool) key = some entry ∧
        Moved runtime owner mode others key own entry ∧
        (mergedVault owner merge).get key = some (.obj (own.spread entry))) ∧
    ∀ own entry, kimiEntry (some pool) = some entry → kimiEntry (some owner) = some own →
      isNewer entry own = true → sameTokens entry own = false →
      (merge.bind fun merge => merge.next).isSome = true ∧
        (mergedVault owner merge).get kimiKey = some (.obj (own.spread entry)) := by
  unfold newerInto at ended
  dsimp only at ended
  cases merges : mergeEntries runtime owner mode others ⟨owner, [], false⟩ (objectEntries pool) with
  | error message => rw [merges] at ended; cases ended
  | ok merged =>
    rw [merges] at ended
    obtain ⟨⟨changes, -⟩, entries⟩ := mergeEntries_get merges
    have vault : mergedVault owner merge = merged.next ∧
        (merged.changed = true → (merge.bind fun merge => merge.next).isSome = true) := by
      change (if ¬ merged.changed = true ∧ merged.backup = [] then _ else _) = _ at ended
      cases changed : merged.changed with
      | true =>
        rw [changed, if_neg (fun both => both.1 rfl)] at ended
        cases ended
        exact ⟨rfl, fun _ => rfl⟩
      | false =>
        have same : merged.next = owner := changes.resolve_left (by rw [changed]; decide)
        simp only [changed, Bool.false_eq_true, not_false_eq_true, true_and, if_false] at ended
        split_ifs at ended <;> cases ended <;> exact ⟨same.symm, fun same => nomatch same⟩
    rw [vault.1]
    refine ⟨fun key => ?_, fun own entry inPool inVault newer different => ?_⟩
    · rcases entries key with same | ⟨own, entry, member, moved, -, result⟩
      · exact Or.inl same
      · exact Or.inr ⟨own, entry,
          oauthEntry_eq_some.mpr ⟨mem_objectEntries.mp member, moved.oauth⟩, moved, result⟩
    · obtain ⟨has, oauth⟩ := oauthEntry_eq_some.mp inPool
      have moved : Moved runtime owner mode others kimiKey own entry :=
        ⟨inVault, oauth, newer, different, fun _ => rfl, absurd rfl, absurd rfl⟩
      obtain ⟨changed, last, isLast, result⟩ :=
        mergeEntries_kimi moved (mem_objectEntries.mpr has) merges
      have same := (mem_objectEntries.mp isLast).symm.trans has
      cases same
      exact ⟨vault.2 changed, result⟩

theorem sharedChain_false {key : String} {entry : Object} :
    ∀ {grants : List Object}, sharedChain key entry grants = .ok false → ∀ grant ∈ grants,
      ∀ theirs, oauthEntry (some grant) key = some theirs → shareTokens theirs entry = false := by
  intro grants
  induction grants with
  | nil => exact fun _ grant member => nomatch member
  | cons first rest inductionHypothesis =>
    intro ended
    have goesOn : sharedChain key entry rest = .ok false → (∀ theirs,
        oauthEntry (some first) key = some theirs → shareTokens theirs entry = false) →
        ∀ grant ∈ first :: rest, ∀ theirs, oauthEntry (some grant) key = some theirs →
          shareTokens theirs entry = false :=
      fun later here => List.forall_mem_cons.mpr ⟨here, inductionHypothesis later⟩
    have noEntry : ∀ value, first.get key = value → (∀ fields, value ≠ some (.obj fields)) →
        ∀ theirs, oauthEntry (some first) key = some theirs → shareTokens theirs entry = false :=
      fun value has noObject theirs found =>
        absurd (has.symm.trans (oauthEntry_eq_some.mp found).1) (noObject theirs)
    unfold sharedChain at ended
    cases has : first.get key with
    | none =>
      rw [has] at ended
      exact goesOn ended (noEntry _ has fun _ same => nomatch same)
    | some value =>
      rw [has] at ended
      cases value with
      | null => cases ended
      | obj fields =>
        dsimp only at ended
        by_cases shared : (isOauth fields && shareTokens fields entry) = true
        · rw [if_pos shared] at ended
          cases ended
        rw [if_neg shared] at ended
        refine goesOn ended fun theirs found => ?_
        obtain ⟨same, oauth⟩ := oauthEntry_eq_some.mp found
        cases has.symm.trans same
        rw [oauth, Bool.true_and, Bool.not_eq_true] at shared
        exact shared
      | _ => exact goesOn ended (noEntry _ has fun _ same => nomatch same)

end Merging

/-! ### Written files -/

section Written

theorem isOauth_written (entry : Object) : isOauth (writtenMembers entry) = isOauth entry := by
  unfold isOauth
  rw [Object.get_written]
  refine decide_eq_decide.mpr ?_
  cases entry.get "type" with
  | none => exact Iff.rfl
  | some value =>
    rw [Option.map_some, Option.some.injEq, Option.some.injEq]
    refine ⟨fun same => ?_, fun same => by rw [same]; rfl⟩
    have text := congrArg Json.asString? same
    rw [Json.asString?_written] at text
    cases value with
    | str text' => exact congrArg Json.str (Option.some.inj text)
    | _ => cases text

/-- An entry of a written file. -/
theorem oauthEntry_written {object entry : Object} {key : String}
    (has : object.get key = some (.obj entry)) (oauth : isOauth entry = true) :
    oauthEntry (some (writtenMembers object)) key = some (writtenMembers entry) := by
  refine oauthEntry_eq_some.mpr ⟨?_, (isOauth_written entry).trans oauth⟩
  rw [Option.bind_some, Object.get_written, has, Option.map_some, Json.written_obj]

/-- The tokens of an entry, as strings. -/
def tokens (entry : Object) : List String :=
  ((access entry).bind Json.asString?).toList ++ ((refresh entry).bind Json.asString?).toList

/-- Every token of the entry is in the entry a vault has for the same provider. -/
def HoldsEntry (vault : Option Object) (key : String) (entry : Object) : Prop :=
  ∃ held, oauthEntry vault key = some held ∧
    (∀ token, (access entry).bind Json.asString? = some token →
      (access held).bind Json.asString? = some token) ∧
    ∀ token, (refresh entry).bind Json.asString? = some token →
      (refresh held).bind Json.asString? = some token

theorem asString?_get_written (entry : Object) (key : String) :
    ((writtenMembers entry).get key).bind Json.asString? = (entry.get key).bind Json.asString? := by
  rw [Object.get_written]
  cases entry.get key with
  | none => rfl
  | some value => exact Json.asString?_written value

/-- An entry over another one, written, has the tokens of the first. -/
theorem holdsEntry_spread {object own entry : Object} {key : String}
    (has : object.get key = some (.obj (own.spread entry))) (oauth : isOauth entry = true) :
    HoldsEntry (some (writtenMembers object)) key entry := by
  have carried : ∀ name value, entry.get name = some value →
      (own.spread entry).get name = some value := by
    intro name value found
    rw [Members.get_spread, found]
    rfl
  have oauthSpread : isOauth (own.spread entry) = true :=
    decide_eq_true (carried "type" _ (of_decide_eq_true oauth))
  have kept : ∀ name token, (entry.get name).bind Json.asString? = some token →
      ((writtenMembers (own.spread entry)).get name).bind Json.asString? = some token := by
    intro name token found
    rw [asString?_get_written]
    obtain ⟨value, isValue, isText⟩ := Option.bind_eq_some_iff.mp found
    rw [carried name value isValue]
    exact isText
  exact ⟨_, oauthEntry_written has oauthSpread, kept "access", kept "refresh"⟩

theorem holdsEntry_of_sameTokens {vault : Option Object} {key : String} {own entry : Object}
    (has : oauthEntry vault key = some own) (same : sameTokens entry own = true) :
    HoldsEntry vault key entry := by
  rw [sameTokens, Bool.and_eq_true] at same
  refine ⟨own, has, fun token found => ?_, fun token found => ?_⟩
  · exact (Json.asString?_of_strictEqual same.1).symm.trans found
  · exact (Json.asString?_of_strictEqual same.2).symm.trans found

/-- An entry of a vault stays there when the vault is written with its entry unchanged. -/
theorem HoldsEntry.written {vault next : Object} {key : String} {entry : Object}
    (holds : HoldsEntry (some vault) key entry) (same : next.get key = vault.get key) :
    HoldsEntry (some (writtenMembers next)) key entry := by
  obtain ⟨held, has, first, second⟩ := holds
  obtain ⟨found, oauth⟩ := oauthEntry_eq_some.mp has
  refine ⟨writtenMembers held, oauthEntry_written (same.trans found) oauth,
    fun token isToken => ?_, fun token isToken => ?_⟩
  · exact (asString?_get_written held "access").trans (first token isToken)
  · exact (asString?_get_written held "refresh").trans (second token isToken)

theorem disjoint_of_shareTokens {theirs entry : Object} (apart : shareTokens theirs entry = false) :
    (tokens theirs).Disjoint (tokens entry) := by
  have differ : ∀ first second : Option Json, Json.strictEqual first second = false → ∀ token,
      first.bind Json.asString? = some token → second.bind Json.asString? ≠ some token := by
    intro first second different token isFirst isSecond
    obtain ⟨_, rfl, firstText⟩ := Option.bind_eq_some_iff.mp isFirst
    obtain ⟨_, rfl, secondText⟩ := Option.bind_eq_some_iff.mp isSecond
    rw [Json.eq_str_of_asString? firstText, Json.eq_str_of_asString? secondText] at different
    exact absurd (decide_eq_true rfl) (Bool.eq_false_iff.mp different)
  simp only [shareTokens, Bool.or_eq_false_iff] at apart
  obtain ⟨⟨⟨accesses, refreshes⟩, first⟩, second⟩ := apart
  intro token inTheirs inEntry
  simp only [tokens, List.mem_append, Option.mem_toList] at inTheirs inEntry
  rcases inTheirs with theirAccess | theirRefresh <;> rcases inEntry with access | refresh
  · exact differ _ _ accesses token theirAccess access
  · exact differ _ _ first token theirAccess refresh
  · exact differ _ _ second token theirRefresh access
  · exact differ _ _ refreshes token theirRefresh refresh

end Written

/-! ### Tests on whole files -/

section Tests

variable {runtime : TokenRuntime} {vault : Option Object} {key : String} {entry : Object}

/-- Files with the same fingerprint have the same tokens. -/
theorem holdsEntry_of_fingerprint {owner pool : Object}
    (same : fingerprint runtime owner = fingerprint runtime pool)
    (inPool : oauthEntry (some pool) key = some entry) : HoldsEntry (some owner) key entry := by
  obtain ⟨has, oauth⟩ := oauthEntry_eq_some.mp inPool
  have sorted : ∀ {grant : Object} {field : String × Object}, field ∈ sortedOauth runtime grant ↔
      field ∈ objectEntries grant ∧ isOauth field.2 = true := by
    intro grant field
    rw [sortedOauth, List.mem_insertionSort, List.mem_filter]
  have listed : tokensKey (key, entry) ∈ (sortedOauth runtime pool).map tokensKey :=
    List.mem_map_of_mem (sorted.mpr ⟨mem_objectEntries.mpr has, oauth⟩)
  rw [← Json.arr.inj same] at listed
  obtain ⟨⟨name, own⟩, isOwn, triple⟩ := List.mem_map.mp listed
  obtain ⟨inOwner, ownOauth⟩ := sorted.mp isOwn
  rw [tokensKey, tokensKey, Json.written_arr, Json.written_arr] at triple
  have parts := Json.arr.inj triple
  simp only [List.map_cons, List.map_nil, List.cons.injEq, Json.written_str, Json.str.injEq] at parts
  obtain ⟨rfl, accesses, refreshes, -⟩ := parts
  have text : ∀ first second : Option Json, (first.getD .null).written = (second.getD .null).written →
      ∀ token, second.bind Json.asString? = some token → first.bind Json.asString? = some token := by
    have read : ∀ value : Option Json, (value.getD .null).written.asString? =
        value.bind Json.asString? := by
      intro value
      rw [Json.asString?_written]
      cases value <;> rfl
    intro first second equal token isToken
    rw [← read, equal, read]
    exact isToken
  exact ⟨own, oauthEntry_eq_some.mpr ⟨mem_objectEntries.mp inOwner, ownOauth⟩,
    text _ _ accesses, text _ _ refreshes⟩

theorem isPoolOnly_of_hasPoolOnlyContent {pool : Object}
    (ended : hasPoolOnlyContent pool vault = .ok false) (has : pool.get key = some (.obj entry)) :
    isPoolOnly vault key entry = .ok false := by
  have all : ∀ entries : Members Object, anyPoolOnly vault entries = .ok false →
      ∀ field ∈ entries, isPoolOnly vault field.1 field.2 = .ok false := by
    intro entries
    induction entries with
    | nil => exact fun _ _ member => nomatch member
    | cons first rest inductionHypothesis =>
      intro ended
      unfold anyPoolOnly at ended
      cases lacking : isPoolOnly vault first.1 first.2 with
      | error message => rw [lacking] at ended; cases ended
      | ok isLacking =>
        rw [lacking] at ended
        cases isLacking with
        | true => cases ended
        | false => exact List.forall_mem_cons.mpr ⟨lacking, inductionHypothesis ended⟩
  exact all _ ended (key, entry) (mem_objectEntries.mpr has)

/-- An entry that the pool does not have alone is in the vault or is not newer there, unless it
faces something that is no OAuth entry. -/
theorem of_isPoolOnly_false (kept : isPoolOnly vault key entry = .ok false)
    (oauth : isOauth entry = true) (other : key ≠ kimiKey)
    (facing : ∀ value, (vault.bind fun fields => fields.get key) = some value →
      (oauthEntry vault key).isSome = true) :
    ∃ own, oauthEntry vault key = some own ∧
      (isNewer entry own = false ∨ sameTokens entry own = true) := by
  unfold isPoolOnly at kept
  cases has : vault.bind fun fields => fields.get key with
  | none => rw [has] at kept; cases kept
  | some value =>
    obtain ⟨own, isOwn⟩ := Option.isSome_iff_exists.mp (facing value has)
    obtain ⟨found, ownOauth⟩ := oauthEntry_eq_some.mp isOwn
    have same : value = .obj own := Option.some.inj (has.symm.trans found)
    rw [has, same] at kept
    dsimp only at kept
    rw [if_neg (not_not.mpr oauth), if_neg other] at kept
    refine ⟨own, isOwn, ?_⟩
    have result : (isOauth own && isNewer entry own && !sameTokens entry own) = false :=
      Except.ok.inj kept
    rw [ownOauth, Bool.true_and, Bool.and_eq_false_iff, Bool.not_eq_false'] at result
    exact result

/-- The account that an entry claims. -/
def accountOfEntry (runtime : TokenRuntime) (entry : Object) : Option String :=
  (claimedAccount runtime entry).map fun account => account.value

/-- The account of a file is the one its `kimi-coding` entry claims. -/
theorem exists_kimiEntry_of_id {grant : Option Object} {accountId : String}
    (account : ((piSpec runtime).identity grant).id = some accountId) :
    ∃ entry, kimiEntry grant = some entry ∧ accountOfEntry runtime entry = some accountId := by
  change (pairIdentity runtime ((kimiEntry grant).bind access)
    ((kimiEntry grant).bind refresh)).id = some accountId at account
  cases has : kimiEntry grant with
  | none => rw [has] at account; cases account
  | some entry =>
    rw [has] at account
    refine ⟨entry, rfl, ?_⟩
    change (if _ then none else _) = _ at account
    split_ifs at account with hybrid
    exact account

end Tests

end AiSwitcher.Pi
