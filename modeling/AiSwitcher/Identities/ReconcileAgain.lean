/-
This file proves when a reconcile of two diverged copies reaches a fixed point. The copy
that is kept is written into the other store; the tokens read back there are the kept
access token and the kept refresh token, or the refresh token that was there where the
kept copy has none. In Grok's map the native copy is looked up again by the refresh
token, and another entry with the same refresh token may be found first.
-/

import AiSwitcher.Identities.Reconcile
import AiSwitcher.Library.Control

namespace AiSwitcher.Reconcile

open JavaScript

/-! ### Tokens that are written -/

/-- What identifies a copy. -/
def StoreCopy.tokens (copy : StoreCopy) : String × Option String :=
  (copy.grant.accessToken, copy.grant.refreshToken)

/-- The tokens of a grant that was read are not blank. -/
structure IsUsable (grant : OAuthGrant) : Prop where
  access : trim grant.accessToken ≠ ""
  refresh : ∀ token, grant.refreshToken = some token → trim token ≠ ""

theorem usableToken_eq_some {value : Json} {token : String} :
    usableToken value = some token ↔ value = .str token ∧ trim token ≠ "" := by
  cases value with
  | str text =>
    show (if trim text = "" then none else some text) = some token ↔ _
    split_ifs with blank
    · simp only [Json.str.injEq, false_iff, not_and, not_not]
      rintro rfl
      exact blank
    · simp only [Option.some.injEq, Json.str.injEq, iff_self_and]
      rintro rfl
      exact blank
  | _ => simp [usableToken]

theorem usableToken_written (value : Json) : usableToken value.written = usableToken value := by
  cases value with
  | arr items => rw [Json.written_arr]; rfl
  | num number => cases number <;> rfl
  | obj fields => rw [Json.written_obj]; rfl
  | _ => rfl

theorem ne_empty_of_trim {token : String} (usable : trim token ≠ "") : token ≠ "" := by
  rintro rfl
  exact usable (by decide)

theorem get_tokenMember {grant : OAuthGrant} (usable : IsUsable grant) (key name : String) :
    (tokenMember key grant.refreshToken).get name =
      if name = key then grant.refreshToken.map .str else none := by
  cases has : grant.refreshToken with
  | none => simp [tokenMember, Members.get]
  | some token =>
    have nonempty := ne_empty_of_trim (usable.refresh token has)
    rw [tokenMember, if_neg nonempty, Members.get_cons]
    by_cases same : name = key
    · simp [same]
    · have different : key ≠ name := fun equal => same equal.symm
      simp [same, different, Members.get]

theorem get_timeMember (key name : String) (time : Option Number) :
    (timeMember key time).get name = if name = key then time.map .num else none := by
  cases time with
  | none => simp [timeMember, Members.get]
  | some time =>
    rw [timeMember, Members.get_cons]
    by_cases same : name = key
    · simp [same]
    · have different : key ≠ name := fun equal => same equal.symm
      simp [same, different, Members.get]

/-- The refresh token read back: the written one, else what was there. -/
theorem bind_usableToken_or {grant : OAuthGrant} (usable : IsUsable grant) (old : Option Json) :
    ((grant.refreshToken.map Json.str).or old).bind usableToken =
      grant.refreshToken.or (old.bind usableToken) := by
  cases has : grant.refreshToken with
  | none => rfl
  | some token => exact usableToken_eq_some.mpr ⟨rfl, usable.refresh token has⟩

theorem bind_usableToken_written (value : Option Json) :
    (value.map Json.written).bind usableToken = value.bind usableToken := by
  cases value with
  | none => rfl
  | some value => exact usableToken_written value

/-! ### A store's section with the tokens -/

/-- The tokens under two keys of an object. -/
def sectionTokens (access refresh : String) (fields : Object) : Option (String × Option String) :=
  ((fields.get access).bind usableToken).map fun accessToken =>
    (accessToken, (fields.get refresh).bind usableToken)

theorem sectionTokens_refresh {access refresh : String} {fields : Object}
    {tokens : String × Option String}
    (found : sectionTokens access refresh fields = some tokens) :
    (fields.get refresh).bind usableToken = tokens.2 := by
  obtain ⟨accessToken, -, same⟩ := Option.map_eq_some_iff.mp found
  rw [← same]

theorem isUsable_of_section {access refresh : String} {fields : Object} {grant : OAuthGrant}
    (found : sectionTokens access refresh fields = some (grant.accessToken, grant.refreshToken)) :
    IsUsable grant := by
  obtain ⟨accessToken, isAccess, same⟩ := Option.map_eq_some_iff.mp found
  have isRefresh := sectionTokens_refresh found
  have isKept : accessToken = grant.accessToken := (Prod.ext_iff.mp same).1
  obtain ⟨value, -, usable⟩ := Option.bind_eq_some_iff.mp isAccess
  refine ⟨isKept ▸ (usableToken_eq_some.mp usable).2, fun token has => ?_⟩
  obtain ⟨value, -, usable⟩ := Option.bind_eq_some_iff.mp (isRefresh.trans has)
  exact (usableToken_eq_some.mp usable).2

/-- The section is written as the store's writers do it, and read again. -/
theorem sectionTokens_rewritten {access refresh : String} (different : access ≠ refresh)
    {grant : OAuthGrant} (usable : IsUsable grant) (fields extra : Object)
    (noAccess : extra.get access = none) (noRefresh : extra.get refresh = none) :
    sectionTokens access refresh (writtenMembers
        (((fields.set access (.str grant.accessToken)).spread
          (tokenMember refresh grant.refreshToken)).spread extra)) =
      some (grant.accessToken, grant.refreshToken.or ((fields.get refresh).bind usableToken)) := by
  have accessKept : usableToken (.str grant.accessToken) = some grant.accessToken :=
    usableToken_eq_some.mpr ⟨rfl, usable.access⟩
  simp only [sectionTokens, Object.get_written, bind_usableToken_written, Members.get_spread,
    Members.get_set, noAccess, noRefresh, Option.none_or, get_tokenMember usable,
    if_neg different, if_neg different.symm, if_true, Option.bind_some, Option.map_some,
    Json.written_str, accessKept, bind_usableToken_or usable]

theorem asObject?_eq_some {value : Json} {fields : Object} :
    value.asObject? = some fields ↔ value = .obj fields := by
  cases value <;> simp [Json.asObject?]

/-- A member that is an object, in a file that was written and read again. -/
theorem bind_asObject?_written {object : Object} {key : String} {fields : Object}
    (has : object.get key = some (.obj fields)) :
    (Members.get (writtenMembers object) key).bind Json.asObject? =
      some (writtenMembers fields) := by
  rw [Object.get_written, has]
  simp [Json.asObject?]

theorem get_set_self (object : Object) (key : String) (value : Json) :
    (object.set key value).get key = some value := by
  rw [Members.get_set, if_pos rfl]

theorem spread_nil (object : Object) : object.spread [] = object := by
  simp [Members.spread, Members.get]

/-! ### What each store holds after a rewrite -/

section Stores

variable {runtime : TokenRuntime} {pairing : Pairing} {path : String} {text : Option FileText}
  {copy : StoreCopy} {grant : OAuthGrant}

/-- The tokens read back from a store into which a grant was written. -/
def mixed (grant : OAuthGrant) (copy : StoreCopy) : String × Option String :=
  (grant.accessToken, grant.refreshToken.or copy.grant.refreshToken)

/-- Pi's entry of a provider. -/
def piSection (provider : Provider) (text : Option FileText) : Option Object := do
  let raw ← parseObject text
  ((raw.get provider.key).bind Json.asObject?).filter fun entry =>
    entry.get "type" = some (.str "oauth")

theorem tokens_readPiEntry (provider : Provider) :
    (readPiEntry runtime provider path text).map StoreCopy.tokens =
      (piSection provider text).bind (sectionTokens "access" "refresh") := by
  unfold readPiEntry piSection
  cases parseObject text with
  | none => rfl
  | some raw =>
    simp only [Option.bind_eq_bind, Option.bind_some]
    cases ((raw.get provider.key).bind Json.asObject?).filter fun entry =>
        entry.get "type" = some (.str "oauth") with
    | none => rfl
    | some entry =>
      simp only [piGrant, sectionTokens, Option.bind_eq_bind, Option.bind_some, Option.pure_def]
      cases (entry.get "access").bind usableToken <;> rfl

theorem tokens_rewrittenPi {provider : Provider}
    (found : readPiEntry runtime provider path text = some copy) (usable : IsUsable grant) :
    (readPiEntry runtime provider path (some (stringify
        (piEntry ((parseObject text).getD []) provider grant)))).map StoreCopy.tokens =
      some (mixed grant copy) := by
  have before : (readPiEntry runtime provider path text).map StoreCopy.tokens = _ :=
    tokens_readPiEntry provider
  rw [found, Option.map_some, eq_comm, Option.bind_eq_some_iff] at before
  obtain ⟨entry, isEntry, tokens⟩ := before
  obtain ⟨raw, isRaw, isSection⟩ := Option.bind_eq_some_iff.mp isEntry
  obtain ⟨isObject, isOauth⟩ := Option.filter_eq_some_iff.mp isSection
  rw [tokens_readPiEntry]
  unfold piSection
  rw [parseObject_stringify, isRaw]
  simp only [Option.getD_some, piEntry, isObject, Option.bind_eq_bind, Option.bind_some,
    bind_asObject?_written (get_set_self _ _ _)]
  rw [Option.filter_some, if_pos, Option.bind_some, sectionTokens_rewritten (by decide) usable,
    Members.get_set, if_neg (by decide), sectionTokens_refresh tokens]
  · rfl
  · rw [get_timeMember, if_neg (by decide)]
  · rw [get_timeMember, if_neg (by decide)]
  · simp [Object.get_written, get_timeMember, get_tokenMember usable]

theorem nativeAnthropic_eq (raw : Object) (grant : OAuthGrant) :
    nativeAnthropic raw grant = raw.set "claudeAiOauth" (.obj
      (((((raw.get "claudeAiOauth").bind Json.asObject?).getD []).set "accessToken"
        (.str grant.accessToken)).spread (tokenMember "refreshToken" grant.refreshToken) |>.spread
          (timeMember "expiresAt" (grant.expiresAt.map milliseconds)))) := by
  unfold nativeAnthropic
  cases grant.refreshToken <;> cases grant.expiresAt <;> rfl

def anthropicSection (text : Option FileText) : Option Object := do
  let raw ← parseObject text
  (raw.get "claudeAiOauth").bind Json.asObject?

def codexSection (text : Option FileText) : Option Object := do
  let raw ← parseObject text
  (raw.get "tokens").bind Json.asObject?

theorem tokens_readNativeAnthropic (path : String) (text : Option FileText) :
    ((readNativeAnthropic text).map fun grant =>
        StoreCopy.tokens { path, grant, entryKey := none }) =
      (anthropicSection text).bind (sectionTokens "accessToken" "refreshToken") := by
  unfold readNativeAnthropic anthropicSection
  cases parseObject text with
  | none => rfl
  | some raw =>
    simp only [Option.bind_eq_bind, Option.bind_some, Option.pure_def]
    cases (raw.get "claudeAiOauth").bind Json.asObject? with
    | none => rfl
    | some auth =>
      simp only [sectionTokens, Option.bind_some]
      cases (auth.get "accessToken").bind usableToken <;> rfl

theorem tokens_readNativeCodex :
    (readNativeCodex runtime path text).map StoreCopy.tokens =
      (codexSection text).bind (sectionTokens "access_token" "refresh_token") := by
  unfold readNativeCodex codexSection
  cases parseObject text with
  | none => rfl
  | some raw =>
    simp only [Option.bind_eq_bind, Option.bind_some, Option.pure_def]
    cases (raw.get "tokens").bind Json.asObject? with
    | none => rfl
    | some tokens =>
      simp only [codexGrant, sectionTokens, Option.bind_eq_bind, Option.bind_some, Option.pure_def]
      cases (tokens.get "access_token").bind usableToken <;> rfl

theorem tokens_rewrittenAnthropic {kept : OAuthGrant}
    (found : readNativeAnthropic text = some kept) (usable : IsUsable grant) :
    (readNativeAnthropic (some (stringify
        (nativeAnthropic ((parseObject text).getD []) grant)))).map
          (fun grant => StoreCopy.tokens { path, grant, entryKey := none }) =
      some (grant.accessToken, grant.refreshToken.or kept.refreshToken) := by
  have before := tokens_readNativeAnthropic path text
  rw [found, Option.map_some, eq_comm, Option.bind_eq_some_iff] at before
  obtain ⟨auth, isAuth, tokens⟩ := before
  obtain ⟨raw, isRaw, isObject⟩ := Option.bind_eq_some_iff.mp isAuth
  rw [tokens_readNativeAnthropic]
  unfold anthropicSection
  rw [parseObject_stringify, isRaw, nativeAnthropic_eq]
  simp only [Option.getD_some, isObject, Option.bind_eq_bind, Option.bind_some,
    bind_asObject?_written (get_set_self _ _ _)]
  rw [sectionTokens_rewritten (by decide) usable, sectionTokens_refresh tokens]
  · rfl
  · rw [get_timeMember, if_neg (by decide)]
  · rw [get_timeMember, if_neg (by decide)]

theorem tokens_rewrittenCodex {runtime : ReconcileRuntime} {rewritten : Object}
    (found : readNativeCodex runtime.toTokenRuntime path text = some copy) (usable : IsUsable grant)
    (ended : nativeCodex runtime ((parseObject text).getD []) grant = .ok rewritten) :
    (readNativeCodex runtime.toTokenRuntime path (some (stringify rewritten))).map
      StoreCopy.tokens = some (mixed grant copy) := by
  have before : (readNativeCodex runtime.toTokenRuntime path text).map StoreCopy.tokens = _ :=
    tokens_readNativeCodex
  rw [found, Option.map_some, eq_comm, Option.bind_eq_some_iff] at before
  obtain ⟨tokens, isTokens, held⟩ := before
  obtain ⟨raw, isRaw, isObject⟩ := Option.bind_eq_some_iff.mp isTokens
  rw [isRaw, Option.getD_some] at ended
  have has : rewritten.get "tokens" = some (.obj ((tokens.set "access_token"
      (.str grant.accessToken)).spread (tokenMember "refresh_token" grant.refreshToken))) := by
    unfold nativeCodex at ended
    rw [isObject] at ended
    cases minted : grant.mintedAt with
    | none =>
      rw [minted] at ended
      cases ended
      exact get_set_self _ _ _
    | some time =>
      rw [minted] at ended
      obtain ⟨date, -, isRewritten⟩ := (bind_eq_ok _ _ _).mp ended
      cases isRewritten
      rw [Members.get_set, if_neg (by decide)]
      exact get_set_self _ _ _
  rw [tokens_readNativeCodex]
  unfold codexSection
  rw [parseObject_stringify]
  simp only [Option.bind_eq_bind, Option.bind_some, bind_asObject?_written has]
  rw [← spread_nil ((tokens.set _ _).spread _),
    sectionTokens_rewritten (by decide) usable _ _ rfl rfl, sectionTokens_refresh held]
  rfl

end Stores

/-! ### Grok's map -/

section Grok

variable {runtime : TokenRuntime} {path : String} {text : Option FileText} {copy : StoreCopy}

/-- The entry has a refresh token with the fingerprint. -/
def bears (runtime : TokenRuntime) (fingerprint : String) (field : String × Json) : Bool :=
  (grokEntry field.2).any fun held => runtime.digest (trim held.2) = fingerprint

theorem grokEntry_eq_some {value : Json} {entry : Object} {token : String} :
    grokEntry value = some (entry, token) ↔
      value = .obj entry ∧ (entry.get "refresh_token").bind usableToken = some token := by
  simp only [grokEntry, Option.bind_eq_bind, Option.pure_def, Option.bind_eq_some_iff,
    Option.some.injEq, Prod.mk.injEq, asObject?_eq_some]
  constructor
  · rintro ⟨found, isObject, read, isToken, rfl, rfl⟩
    exact ⟨isObject, isToken⟩
  · rintro ⟨isObject, isToken⟩
    exact ⟨entry, isObject, token, isToken, rfl, rfl⟩

theorem trim_of_bind_usableToken {value : Option Json} {token : String}
    (has : value.bind usableToken = some token) : trim token ≠ "" := by
  obtain ⟨held, -, usable⟩ := Option.bind_eq_some_iff.mp has
  exact (usableToken_eq_some.mp usable).2

theorem grantFingerprint_of_refresh {grant : OAuthGrant} {token : String}
    (has : grant.refreshToken = some token) (usable : trim token ≠ "") :
    grantFingerprint runtime grant = runtime.digest (trim token) := by
  simp [grantFingerprint, has, usable]

theorem grantFingerprint_congr {first second : StoreCopy} (same : first.tokens = second.tokens) :
    grantFingerprint runtime first.grant = grantFingerprint runtime second.grant := by
  obtain ⟨access, refresh⟩ := Prod.ext_iff.mp same
  dsimp only [StoreCopy.tokens] at access refresh
  unfold grantFingerprint
  rw [access, refresh]

theorem entryFingerprint_eq {value : Json} {entry : Object} {token : String}
    (has : grokEntry value = some (entry, token)) :
    entryFingerprint runtime entry token = runtime.digest (trim token) := by
  unfold entryFingerprint
  exact grantFingerprint_of_refresh rfl (trim_of_bind_usableToken (grokEntry_eq_some.mp has).2)

theorem grokEntryKey_of_find? {fingerprint : String} {entries : Members Json}
    {field : String × Json} (found : entries.find? (bears runtime fingerprint) = some field)
    (freshest : Option (String × Option Number)) :
    grokEntryKey runtime (some fingerprint) entries freshest = some field.1 := by
  induction entries generalizing freshest with
  | nil => cases found
  | cons first rest inductionHypothesis =>
    obtain ⟨key, value⟩ := first
    rw [List.find?_cons] at found
    unfold grokEntryKey
    cases held : grokEntry value with
    | none =>
      have passed : bears runtime fingerprint (key, value) = false := by simp [bears, held]
      rw [passed] at found
      exact inductionHypothesis found _
    | some entry =>
      obtain ⟨entry, token⟩ := entry
      dsimp only
      rw [entryFingerprint_eq held]
      by_cases isMatch : runtime.digest (trim token) = fingerprint
      · have passed : bears runtime fingerprint (key, value) = true := by
          simp [bears, held, isMatch]
        rw [passed] at found
        cases found
        rw [if_pos (by rw [isMatch])]
      · have passed : bears runtime fingerprint (key, value) = false := by
          simp [bears, held, isMatch]
        rw [passed] at found
        rw [if_neg fun equal => isMatch (Option.some.inj equal).symm]
        exact inductionHypothesis found _

/-- Only an entry with a refresh token is chosen. -/
theorem grokEntry_of_grokEntryKey {matchFingerprint : Option String} {entries : Members Json}
    {freshest : Option (String × Option Number)} {key : String}
    (found : grokEntryKey runtime matchFingerprint entries freshest = some key) :
    (∃ value held, (key, value) ∈ entries ∧ grokEntry value = some held) ∨
      freshest.map Prod.fst = some key := by
  induction entries generalizing freshest with
  | nil => exact .inr found
  | cons first rest inductionHypothesis =>
    obtain ⟨name, value⟩ := first
    have later : ∀ {freshest : Option (String × Option Number)},
        grokEntryKey runtime matchFingerprint rest freshest = some key →
        (∃ other held, (key, other) ∈ (name, value) :: rest ∧ grokEntry other = some held) ∨
          freshest.map Prod.fst = some key := by
      intro freshest found
      refine (inductionHypothesis found).imp_left ?_
      rintro ⟨value, held, member, has⟩
      exact ⟨value, held, List.mem_cons_of_mem _ member, has⟩
    unfold grokEntryKey at found
    cases held : grokEntry value with
    | none =>
      rw [held] at found
      exact later found
    | some entry =>
      rw [held] at found
      dsimp only at found
      have here : name = key → ∃ other held, (key, other) ∈ (name, value) :: rest ∧
          grokEntry other = some held := by
        rintro rfl
        exact ⟨value, entry, List.mem_cons_self, held⟩
      split_ifs at found with isMatch isFreshest
      · exact .inl (here (Option.some.inj found))
      · rcases later found with isLater | isBest
        · exact .inl isLater
        · exact .inl (here (Option.some.inj isBest))
      · exact later found

theorem tokens_grokGrant (runtime : TokenRuntime) (path : String) (entry : Object)
    (entryKey : Option String) :
    ((grokGrant runtime entry).map fun grant => StoreCopy.tokens { path, grant, entryKey }) =
      sectionTokens "key" "refresh_token" entry := by
  simp only [grokGrant, sectionTokens, Option.bind_eq_bind, Option.pure_def]
  cases (entry.get "key").bind usableToken <;> rfl

/-- The entry a copy was read from. -/
theorem readNativeGrok_eq_some {matchFingerprint : Option String}
    (found : readNativeGrok runtime path matchFingerprint text = some copy) :
    ∃ raw key entry token, parseObject text = some raw ∧ copy.entryKey = some key ∧
      raw.get key = some (.obj entry) ∧
      (Members.get entry "refresh_token").bind usableToken = some token ∧
      grokEntryKey runtime matchFingerprint raw.entries none = some key ∧
      copy.grant.refreshToken = some token ∧
      sectionTokens "key" "refresh_token" entry = some copy.tokens := by
  obtain ⟨raw, isRaw, found⟩ := Option.bind_eq_some_iff.mp found
  obtain ⟨key, isKey, found⟩ := Option.bind_eq_some_iff.mp found
  obtain ⟨entry, isEntry, found⟩ := Option.bind_eq_some_iff.mp found
  obtain ⟨grant, isGrant, same⟩ := Option.bind_eq_some_iff.mp found
  cases same
  obtain ⟨value, has, isObject⟩ := Option.bind_eq_some_iff.mp isEntry
  cases asObject?_eq_some.mp isObject
  have tokens := tokens_grokGrant runtime path entry (some key)
  rw [isGrant, Option.map_some] at tokens
  rcases grokEntry_of_grokEntryKey isKey with ⟨value, ⟨held, token⟩, member, isHeld⟩ | none
  · rw [Members.mem_entries, has] at member
    cases member
    obtain ⟨same, isToken⟩ := grokEntry_eq_some.mp isHeld
    cases same
    refine ⟨raw, key, entry, token, isRaw, rfl, has, isToken, isKey, ?_, tokens.symm⟩
    exact (sectionTokens_refresh tokens.symm).symm.trans isToken
  · cases none

/-- The first entry with the fingerprint is read. -/
theorem tokens_readNativeGrok {fingerprint key : String} {raw entry : Object}
    (isRaw : parseObject text = some raw)
    (found : raw.entries.find? (bears runtime fingerprint) = some (key, .obj entry)) :
    (readNativeGrok runtime path (some fingerprint) text).map StoreCopy.tokens =
      sectionTokens "key" "refresh_token" entry := by
  have has : raw.get key = some (.obj entry) :=
    Members.mem_entries.mp (List.mem_of_find?_eq_some found)
  rw [← tokens_grokGrant runtime path entry (some key)]
  unfold readNativeGrok
  rw [isRaw]
  simp only [Option.bind_eq_bind, Option.bind_some, grokEntryKey_of_find? found, has,
    Json.asObject?]
  cases grokGrant runtime entry <;> rfl

/-- The first entry with a fingerprint, when there is just one. -/
theorem find?_bears_of_unique {fingerprint : String} {raw : Object} (key : String) {value : Json}
    (has : raw.get key = some value) (isBearer : bears runtime fingerprint (key, value) = true)
    (unique : ∀ other held, raw.get other = some held →
      bears runtime fingerprint (other, held) = true → other = key) :
    raw.entries.find? (bears runtime fingerprint) = some (key, value) := by
  cases found : raw.entries.find? (bears runtime fingerprint) with
  | none =>
    have none := List.find?_eq_none.mp found (key, value) (Members.mem_entries.mpr has)
    exact absurd isBearer none
  | some field =>
    obtain ⟨other, held⟩ := field
    have member := Members.mem_entries.mp (List.mem_of_find?_eq_some found)
    cases unique other held member (List.find?_some found)
    rw [has] at member
    cases member
    rfl

theorem bears_written (fingerprint key : String) (value : Json) :
    bears runtime fingerprint (key, value.written) = bears runtime fingerprint (key, value) := by
  unfold bears grokEntry
  rw [Json.asObject?_written]
  cases value.asObject? with
  | none => rfl
  | some entry =>
    simp only [Option.map_some, Option.bind_eq_bind, Option.bind_some, Object.get_written,
      bind_usableToken_written]
    cases (entry.get "refresh_token").bind usableToken <;> rfl

end Grok

/-! ### Reconciling again -/

section Again

variable {runtime : ReconcileRuntime} {pairing : Pairing} {stores after : Stores}
  {native pi : StoreCopy}

theorem isUsable_readPi (found : readPi runtime.toTokenRuntime pairing stores = some pi) :
    IsUsable pi.grant := by
  have tokens : (readPi runtime.toTokenRuntime pairing stores).map StoreCopy.tokens = _ :=
    tokens_readPiEntry pairing.provider
  rw [found, Option.map_some, eq_comm, Option.bind_eq_some_iff] at tokens
  obtain ⟨entry, -, held⟩ := tokens
  exact isUsable_of_section held

theorem isUsable_readNative
    (found : readNative runtime.toTokenRuntime pairing stores = some native) :
    IsUsable native.grant := by
  unfold readNative at found
  cases isProvider : pairing.provider with
  | anthropic =>
    rw [isProvider] at found
    obtain ⟨grant, isGrant, same⟩ := Option.map_eq_some_iff.mp found
    cases same
    have tokens := tokens_readNativeAnthropic pairing.nativePath stores.native
    rw [isGrant, Option.map_some, eq_comm, Option.bind_eq_some_iff] at tokens
    obtain ⟨auth, -, held⟩ := tokens
    exact isUsable_of_section held
  | openaiCodex =>
    rw [isProvider] at found
    dsimp only at found
    have tokens : (readNativeCodex runtime.toTokenRuntime pairing.nativePath stores.native).map
        StoreCopy.tokens = _ := tokens_readNativeCodex
    rw [found, Option.map_some, eq_comm, Option.bind_eq_some_iff] at tokens
    obtain ⟨auth, -, held⟩ := tokens
    exact isUsable_of_section held
  | xai =>
    rw [isProvider] at found
    obtain ⟨-, -, entry, -, -, -, -, -, -, -, held⟩ := readNativeGrok_eq_some found
    exact isUsable_of_section held

/-- The first entry of Grok's map with the native copy's fingerprint holds the native tokens. -/
def FoundAgain (runtime : TokenRuntime) (stores : Stores) (native : StoreCopy) : Prop :=
  ∃ raw key entry, parseObject stores.native = some raw ∧
    raw.entries.find? (bears runtime (grantFingerprint runtime native.grant)) =
      some (key, .obj entry) ∧
    sectionTokens "key" "refresh_token" entry = some native.tokens

/-- The kept copy has a refresh token if the other has one, and a native copy of Grok's that is
kept is found again. -/
def CarriesWhole (runtime : TokenRuntime) (pairing : Pairing) (stores : Stores)
    (native pi : StoreCopy) : Prop :=
  match freshSide native.grant pi.grant with
  | .native => (native.grant.refreshToken = none → pi.grant.refreshToken = none) ∧
      (pairing.provider = .xai → FoundAgain runtime stores native)
  | .pi => pi.grant.refreshToken = none → native.grant.refreshToken = none

/-- Both stores read back the tokens of one of the two copies, and reconciling again reports that
they are in sync and writes nothing. -/
def Converged (runtime : ReconcileRuntime) (pairing : Pairing) (native pi : StoreCopy)
    (after : Stores) : Prop :=
  (∃ kept ∈ [native, pi],
    (readNative runtime.toTokenRuntime pairing after).map StoreCopy.tokens = some kept.tokens ∧
    (readPi runtime.toTokenRuntime pairing after).map StoreCopy.tokens = some kept.tokens) ∧
  ∀ ioError, (reconcilePair runtime pairing true ioError after).1.status = .inSync ∧
    (reconcilePair runtime pairing true ioError after).2 = after

theorem reconcilePair_inSync {again : StoreCopy} {other : StoreCopy}
    (readsNative : readNative runtime.toTokenRuntime pairing after = some again)
    (readsPi : readPi runtime.toTokenRuntime pairing after = some other)
    (same : again.tokens = other.tokens) (ioError : Option String) :
    (reconcilePair runtime pairing true ioError after).1.status = .inSync ∧
      (reconcilePair runtime pairing true ioError after).2 = after := by
  have fingerprints : grantFingerprint runtime.toTokenRuntime again.grant =
      grantFingerprint runtime.toTokenRuntime other.grant := grantFingerprint_congr same
  unfold reconcilePair
  rw [readsNative, readsPi]
  dsimp only [Option.map_some]
  rw [if_pos (congrArg some fingerprints)]
  exact ⟨rfl, rfl⟩

/-- Convergence is a matter of the tokens read back. -/
theorem converged_iff : Converged runtime pairing native pi after ↔
    ∃ kept ∈ [native, pi],
      (readNative runtime.toTokenRuntime pairing after).map StoreCopy.tokens = some kept.tokens ∧
      (readPi runtime.toTokenRuntime pairing after).map StoreCopy.tokens = some kept.tokens := by
  refine ⟨fun converged => converged.1, fun same => ⟨same, fun ioError => ?_⟩⟩
  obtain ⟨kept, -, isNative, isPi⟩ := same
  obtain ⟨again, readsNative, sameNative⟩ := Option.map_eq_some_iff.mp isNative
  obtain ⟨other, readsPi, samePi⟩ := Option.map_eq_some_iff.mp isPi
  exact reconcilePair_inSync readsNative readsPi (sameNative.trans samePi.symm) ioError

/-- The kept tokens are read back when the kept copy lacks nothing that the other has. -/
theorem mixed_eq_iff {kept copy : StoreCopy} : mixed kept.grant copy = kept.tokens ↔
    (kept.grant.refreshToken = none → copy.grant.refreshToken = none) := by
  unfold mixed StoreCopy.tokens
  cases kept.grant.refreshToken <;> simp

theorem tokens_readPi_writePi (reads : readPi runtime.toTokenRuntime pairing stores = some pi)
    {grant : OAuthGrant} (usable : IsUsable grant) :
    (readPi runtime.toTokenRuntime pairing (writePi pairing grant stores)).map StoreCopy.tokens =
      some (mixed grant pi) :=
  tokens_rewrittenPi reads usable

theorem readNative_writePi (notGrok : pairing.provider ≠ .xai) (grant : OAuthGrant) :
    readNative runtime.toTokenRuntime pairing (writePi pairing grant stores) =
      readNative runtime.toTokenRuntime pairing stores := by
  unfold readNative
  cases isProvider : pairing.provider with
  | anthropic => rfl
  | openaiCodex => rfl
  | xai => exact absurd isProvider notGrok

theorem converged_writePi (diverged : Diverged runtime.toTokenRuntime pairing stores native pi)
    (notGrok : pairing.provider ≠ .xai) :
    Converged runtime pairing native pi (writePi pairing native.grant stores) ↔
      (native.grant.refreshToken = none → pi.grant.refreshToken = none) := by
  rw [converged_iff, readNative_writePi notGrok, diverged.readNative,
    tokens_readPi_writePi diverged.readPi (isUsable_readNative diverged.readNative), ← mixed_eq_iff]
  constructor
  · rintro ⟨kept, -, isNative, isPi⟩
    exact Option.some.inj (isPi.trans isNative.symm)
  · intro same
    exact ⟨native, List.mem_cons_self, rfl, congrArg some same⟩

theorem readNative_xai (isGrok : pairing.provider = .xai) (stores : Stores) :
    readNative runtime.toTokenRuntime pairing stores =
      readNativeGrok runtime.toTokenRuntime pairing.nativePath
        ((readPi runtime.toTokenRuntime pairing stores).map fun copy =>
          grantFingerprint runtime.toTokenRuntime copy.grant) stores.native := by
  unfold readNative
  rw [isGrok]

/-- The native copy's own entry has its fingerprint, so some entry is found. -/
theorem exists_bearer (isGrok : pairing.provider = .xai)
    (reads : readNative runtime.toTokenRuntime pairing stores = some native) :
    ∃ raw key entry, parseObject stores.native = some raw ∧
      raw.entries.find? (bears runtime.toTokenRuntime
        (grantFingerprint runtime.toTokenRuntime native.grant)) = some (key, .obj entry) := by
  rw [readNative_xai isGrok] at reads
  obtain ⟨raw, key, entry, token, isRaw, -, has, isToken, -, isRefresh, -⟩ :=
    readNativeGrok_eq_some reads
  have isBearer : bears runtime.toTokenRuntime
      (grantFingerprint runtime.toTokenRuntime native.grant) (key, .obj entry) = true := by
    rw [grantFingerprint_of_refresh isRefresh (trim_of_bind_usableToken isToken), bears,
      grokEntry_eq_some.mpr ⟨rfl, isToken⟩]
    simp
  cases found : raw.entries.find? (bears runtime.toTokenRuntime
      (grantFingerprint runtime.toTokenRuntime native.grant)) with
  | none =>
    exact absurd isBearer (List.find?_eq_none.mp found _ (Members.mem_entries.mpr has))
  | some field =>
    obtain ⟨other, value⟩ := field
    have bearsIt := List.find?_some found
    cases value with
    | obj entry => exact ⟨raw, other, entry, isRaw, found⟩
    | _ => cases bearsIt

theorem converged_writePi_xai (diverged : Diverged runtime.toTokenRuntime pairing stores native pi)
    (isGrok : pairing.provider = .xai) :
    Converged runtime pairing native pi (writePi pairing native.grant stores) ↔
      FoundAgain runtime.toTokenRuntime stores native := by
  obtain ⟨raw, key, entry, isRaw, found⟩ := exists_bearer isGrok diverged.readNative
  have reads := diverged.readNative
  rw [readNative_xai isGrok] at reads
  obtain ⟨-, -, -, token, -, -, -, -, -, isRefresh, -⟩ := readNativeGrok_eq_some reads
  have whole : mixed native.grant pi = native.tokens :=
    mixed_eq_iff.mpr fun none => by rw [none] at isRefresh; cases isRefresh
  have isPi := tokens_readPi_writePi diverged.readPi (isUsable_readNative diverged.readNative)
  rw [whole] at isPi
  obtain ⟨other, readsPi, samePi⟩ := Option.map_eq_some_iff.mp isPi
  have isNative : (readNative runtime.toTokenRuntime pairing
      (writePi pairing native.grant stores)).map StoreCopy.tokens =
        sectionTokens "key" "refresh_token" entry := by
    rw [readNative_xai isGrok, readsPi, Option.map_some, grantFingerprint_congr samePi]
    exact tokens_readNativeGrok isRaw found
  rw [converged_iff, isNative, isPi]
  constructor
  · rintro ⟨kept, -, sameNative, isKept⟩
    exact ⟨raw, key, entry, isRaw, found, sameNative.trans isKept.symm⟩
  · rintro ⟨again, name, held, isAgain, isFound, tokens⟩
    rw [isRaw] at isAgain
    cases isAgain
    rw [found] at isFound
    cases isFound
    exact ⟨native, List.mem_cons_self, tokens, rfl⟩

theorem writeNative_eq_ok {grant : OAuthGrant}
    (ended : writeNative runtime pairing native grant stores = .ok after) :
    ∃ rewritten, nativeRewritten runtime pairing native grant stores.native = .ok rewritten ∧
      after = { stores with native := some (stringify rewritten) } := by
  obtain ⟨rewritten, isRewritten, same⟩ := (bind_eq_ok _ _ _).mp ended
  cases same
  exact ⟨rewritten, isRewritten, rfl⟩

theorem readPi_writeNative {grant : OAuthGrant}
    (ended : writeNative runtime pairing native grant stores = .ok after) :
    readPi runtime.toTokenRuntime pairing after = readPi runtime.toTokenRuntime pairing stores := by
  obtain ⟨rewritten, -, rfl⟩ := writeNative_eq_ok ended
  rfl

theorem tokens_readNative_writeNative
    (reads : readNative runtime.toTokenRuntime pairing stores = some native)
    (notGrok : pairing.provider ≠ .xai) {grant : OAuthGrant} (usable : IsUsable grant)
    (ended : writeNative runtime pairing native grant stores = .ok after) :
    (readNative runtime.toTokenRuntime pairing after).map StoreCopy.tokens =
      some (mixed grant native) := by
  obtain ⟨rewritten, isRewritten, rfl⟩ := writeNative_eq_ok ended
  unfold readNative at reads ⊢
  unfold nativeRewritten at isRewritten
  cases isProvider : pairing.provider with
  | anthropic =>
    rw [isProvider] at reads isRewritten
    cases isRewritten
    obtain ⟨kept, isKept, same⟩ := Option.map_eq_some_iff.mp reads
    cases same
    dsimp only
    rw [Option.map_map]
    exact tokens_rewrittenAnthropic isKept usable
  | openaiCodex =>
    rw [isProvider] at reads isRewritten
    dsimp only at reads isRewritten ⊢
    split_ifs at isRewritten
    exact tokens_rewrittenCodex reads usable isRewritten
  | xai => exact absurd isProvider notGrok

theorem converged_writeNative (diverged : Diverged runtime.toTokenRuntime pairing stores native pi)
    (notGrok : pairing.provider ≠ .xai)
    (ended : writeNative runtime pairing native pi.grant stores = .ok after) :
    Converged runtime pairing native pi after ↔
      (pi.grant.refreshToken = none → native.grant.refreshToken = none) := by
  rw [converged_iff, readPi_writeNative ended, diverged.readPi, tokens_readNative_writeNative
    diverged.readNative notGrok (isUsable_readPi diverged.readPi) ended, ← mixed_eq_iff]
  constructor
  · rintro ⟨kept, -, isNative, isPi⟩
    exact Option.some.inj (isNative.trans isPi.symm)
  · intro same
    exact ⟨pi, List.mem_cons_of_mem _ List.mem_cons_self, congrArg some same, rfl⟩

theorem get_grokExpiryMember {entry member : Object} {expiry : Option Number}
    (ended : grokExpiryMember runtime entry expiry = .ok member) {key : String}
    (other : key ≠ "expires_at") : member.get key = none := by
  have absent : ∀ value : Json, Members.get [("expires_at", value)] key = none := fun value => by
    rw [Members.get_cons, if_neg fun same => other same.symm]
    rfl
  cases expiry with
  | none =>
    cases ended
    rfl
  | some expiry =>
    unfold grokExpiryMember at ended
    cases isText : (entry.get "expires_at").bind Json.asString? with
    | none =>
      rw [isText] at ended
      cases ended
      exact absent _
    | some text =>
      rw [isText] at ended
      obtain ⟨date, -, same⟩ := (bind_eq_ok _ _ _).mp ended
      cases same
      exact absent _

/-- What the native copy's entry of Grok's map is rewritten to. -/
theorem nativeGrok_eq_ok {raw entry : Object} {key : String} {grant : OAuthGrant}
    {rewritten : Object} (has : raw.get key = some (.obj entry))
    (ended : nativeGrok runtime raw key grant = .ok rewritten) :
    ∃ expiry : Object, expiry.get "key" = none ∧ expiry.get "refresh_token" = none ∧
      rewritten = raw.set key (.obj (((entry.set "key" (.str grant.accessToken)).spread
        (tokenMember "refresh_token" grant.refreshToken)).spread expiry)) := by
  unfold nativeGrok at ended
  rw [has] at ended
  obtain ⟨expiry, isExpiry, same⟩ := (bind_eq_ok _ _ _).mp ended
  cases same
  exact ⟨expiry, get_grokExpiryMember isExpiry (by decide),
    get_grokExpiryMember isExpiry (by decide), rfl⟩

/-- No entry of Grok's map has the fingerprint of Pi's copy when the two copies differ. -/
theorem not_bears_of_diverged {raw : Object}
    (diverged : Diverged runtime.toTokenRuntime pairing stores native pi)
    (isGrok : pairing.provider = .xai) (isRaw : parseObject stores.native = some raw)
    {key : String} {value : Json} (has : raw.get key = some value) :
    bears runtime.toTokenRuntime (grantFingerprint runtime.toTokenRuntime pi.grant)
      (key, value) = false := by
  have reads := diverged.readNative
  rw [readNative_xai isGrok, diverged.readPi, Option.map_some] at reads
  obtain ⟨found, chosen, entry, token, isFound, -, isEntry, isToken, isChosen, isRefresh, -⟩ :=
    readNativeGrok_eq_some reads
  rw [isRaw] at isFound
  cases isFound
  cases isBearer : raw.entries.find? (bears runtime.toTokenRuntime
      (grantFingerprint runtime.toTokenRuntime pi.grant)) with
  | none =>
    exact Bool.not_eq_true _ ▸ List.find?_eq_none.mp isBearer (key, value)
      (Members.mem_entries.mpr has)
  | some field =>
    obtain ⟨other, held⟩ := field
    have same := (grokEntryKey_of_find? isBearer none).symm.trans isChosen
    cases same
    have isHeld := Members.mem_entries.mp (List.mem_of_find?_eq_some isBearer)
    rw [isEntry] at isHeld
    cases isHeld
    have bearsIt := List.find?_some isBearer
    rw [bears, grokEntry_eq_some.mpr ⟨rfl, isToken⟩, Option.any_some, decide_eq_true_eq] at bearsIt
    exact absurd ((grantFingerprint_of_refresh isRefresh
      (trim_of_bind_usableToken isToken)).trans bearsIt) diverged.different

theorem converged_writeNative_xai
    (diverged : Diverged runtime.toTokenRuntime pairing stores native pi)
    (isGrok : pairing.provider = .xai)
    (ended : writeNative runtime pairing native pi.grant stores = .ok after) :
    Converged runtime pairing native pi after ↔
      (pi.grant.refreshToken = none → native.grant.refreshToken = none) := by
  have reads := diverged.readNative
  rw [readNative_xai isGrok, diverged.readPi, Option.map_some] at reads
  obtain ⟨raw, key, entry, token, isRaw, isKey, has, isToken, isChosen, isRefresh, held⟩ :=
    readNativeGrok_eq_some reads
  rw [converged_iff, readPi_writeNative ended, diverged.readPi, readNative_xai isGrok,
    readPi_writeNative ended, diverged.readPi, Option.map_some]
  cases fresh : pi.grant.refreshToken with
  | none =>
    simp only [isRefresh, reduceCtorEq, imp_false, not_true_eq_false, iff_false]
    rintro ⟨kept, -, isNative, isPi⟩
    obtain ⟨again, readsAgain, same⟩ := Option.map_eq_some_iff.mp isNative
    obtain ⟨-, -, -, other, -, -, -, -, -, otherRefresh, -⟩ := readNativeGrok_eq_some readsAgain
    have tokens := (Prod.ext_iff.mp (same.trans (Option.some.inj isPi).symm)).2
    dsimp only [StoreCopy.tokens] at tokens
    rw [otherRefresh, fresh] at tokens
    cases tokens
  | some refresh =>
    refine iff_of_true ?_ (fun none => by cases none)
    refine ⟨pi, List.mem_cons_of_mem _ List.mem_cons_self, ?_, rfl⟩
    obtain ⟨rewritten, isRewritten, rfl⟩ := writeNative_eq_ok ended
    unfold nativeRewritten at isRewritten
    rw [isGrok, isKey, isRaw] at isRewritten
    obtain ⟨expiry, noKey, noRefresh, rfl⟩ := nativeGrok_eq_ok has isRewritten
    have usable := isUsable_readPi diverged.readPi
    have written := sectionTokens_rewritten (by decide) usable entry expiry noKey noRefresh
    rw [fresh, Option.some_or, ← fresh] at written
    have isHeld := sectionTokens_refresh written
    refine (tokens_readNativeGrok (parseObject_stringify _)
      (find?_bears_of_unique key ?_ ?_ ?_)).trans written
    · rw [Object.get_written, get_set_self, Option.map_some, Json.written_obj]
    · rw [grantFingerprint_of_refresh fresh (usable.refresh refresh fresh), bears,
        grokEntry_eq_some.mpr ⟨rfl, isHeld.trans fresh⟩]
      simp
    · intro other held isOther isBearer
      by_contra different
      rw [Object.get_written, Members.get_set, if_neg different] at isOther
      obtain ⟨value, isValue, same⟩ := Option.map_eq_some_iff.mp isOther
      cases same
      rw [bears_written, not_bears_of_diverged diverged isGrok isRaw isValue] at isBearer
      cases isBearer

/-- A reconcile that healed has written the kept copy into the other store. -/
theorem rewriteStaler_of_healed
    (diverged : Diverged runtime.toTokenRuntime pairing stores native pi) {ioError : Option String}
    (healed : (reconcilePair runtime pairing true ioError stores).1.status ∈
      [.rewrotePi, .rewroteNative]) :
    rewriteStaler runtime pairing ioError native pi stores =
      .ok (reconcilePair runtime pairing true ioError stores).2 := by
  unfold reconcilePair at healed ⊢
  rw [diverged.readNative, diverged.readPi] at healed ⊢
  dsimp only [Option.map_some] at healed ⊢
  have forked : ¬ some (grantFingerprint runtime.toTokenRuntime native.grant) =
      some (grantFingerprint runtime.toTokenRuntime pi.grant) :=
    fun same => diverged.different (Option.some.inj same)
  rw [if_neg forked, if_neg (by simp)] at healed ⊢
  cases ended : rewriteStaler runtime pairing ioError native pi stores with
  | ok after => rfl
  | error message =>
    rw [ended] at healed
    simp at healed

/-- The rewriting that was done, by the side whose copy is kept. -/
theorem rewriteStaler_eq_ok {ioError : Option String}
    (ended : rewriteStaler runtime pairing ioError native pi stores = .ok after) :
    (freshSide native.grant pi.grant = .native ∧ after = writePi pairing native.grant stores) ∨
      (freshSide native.grant pi.grant = .pi ∧
        writeNative runtime pairing native pi.grant stores = .ok after) := by
  unfold rewriteStaler at ended
  obtain ⟨rewritten, isRewritten, passed⟩ := (bind_eq_ok _ _ _).mp ended
  have same : rewritten = after := by
    cases ioError with
    | none => exact Except.ok.inj passed
    | some message => cases passed
  cases side : freshSide native.grant pi.grant with
  | native =>
    rw [side] at isRewritten
    exact .inl ⟨rfl, same ▸ (Except.ok.inj isRewritten).symm⟩
  | pi =>
    rw [side] at isRewritten
    exact .inr ⟨rfl, same ▸ isRewritten⟩

end Again

/-- After a heal the two stores hold one of the two copies whole, and reconciling again finds them
in sync, just when the kept copy has a refresh token if the other has one and, where the kept copy
is Grok's, the first entry with its refresh token holds it. -/
theorem reconcilePair_converges_iff (runtime : ReconcileRuntime) (pairing : Pairing)
    (ioError : Option String) (stores : Stores) (native pi : StoreCopy)
    (diverged : Diverged runtime.toTokenRuntime pairing stores native pi)
    (healed : (reconcilePair runtime pairing true ioError stores).1.status ∈
      [.rewrotePi, .rewroteNative]) :
    Converged runtime pairing native pi (reconcilePair runtime pairing true ioError stores).2 ↔
      CarriesWhole runtime.toTokenRuntime pairing stores native pi := by
  unfold CarriesWhole
  rcases rewriteStaler_eq_ok (rewriteStaler_of_healed diverged healed) with
    ⟨side, isAfter⟩ | ⟨side, ended⟩
  · rw [side, isAfter]
    dsimp only
    by_cases isGrok : pairing.provider = .xai
    · rw [converged_writePi_xai diverged isGrok]
      have reads := diverged.readNative
      rw [readNative_xai isGrok] at reads
      obtain ⟨-, -, -, token, -, -, -, -, -, isRefresh, -⟩ := readNativeGrok_eq_some reads
      simp [isRefresh, isGrok]
    · rw [converged_writePi diverged isGrok]
      simp [isGrok]
  · rw [side]
    dsimp only
    by_cases isGrok : pairing.provider = .xai
    · exact converged_writeNative_xai diverged isGrok ended
    · exact converged_writeNative diverged isGrok ended

/-! ### A kept copy without a refresh token -/

namespace Claude

def runtime : ReconcileRuntime where
  decodeJwtPayload := fun _ => none
  digest := id
  dateParse := fun _ => none
  textOf := fun _ => ""
  toIsoString := fun _ => .error "Invalid Date"

def pairing : Pairing := ⟨.anthropic, "/home/u/.claude/.credentials.json", "/home/u/.pi/auth.json"⟩

/-- The native copy is the later one and has no refresh token; Pi's copy has one. -/
def stores : Stores where
  native := some (.json (.obj [("claudeAiOauth", .obj [("accessToken", .str "later"),
    ("expiresAt", .num (.finite 1700005000000))])]))
  pi := some (.json (.obj [("anthropic", .obj [("type", .str "oauth"), ("access", .str "earlier"),
    ("refresh", .str "kept"), ("expires", .num (.finite 1700003000000))])]))

def native : StoreCopy :=
  ⟨"/home/u/.claude/.credentials.json", ⟨"later", none, some (.finite 1700005000), none⟩, none⟩

def pi : StoreCopy :=
  ⟨"/home/u/.pi/auth.json", ⟨"earlier", some "kept", some (.finite 1700003000), none⟩, none⟩

theorem diverged : Diverged runtime.toTokenRuntime pairing stores native pi :=
  ⟨by decide +kernel, by decide +kernel, by decide +kernel⟩

end Claude

theorem reconcilePair_converges_iff_claude :
    (reconcilePair Claude.runtime Claude.pairing true none Claude.stores).1.status ∈
        [ReconcileStatus.rewrotePi, .rewroteNative] ∧
      ¬ Converged Claude.runtime Claude.pairing Claude.native Claude.pi
        (reconcilePair Claude.runtime Claude.pairing true none Claude.stores).2 := by
  have healed : (reconcilePair Claude.runtime Claude.pairing true none Claude.stores).1.status ∈
      [ReconcileStatus.rewrotePi, .rewroteNative] := by decide +kernel
  refine ⟨healed, fun converged => ?_⟩
  have whole := (reconcilePair_converges_iff Claude.runtime Claude.pairing none Claude.stores
    Claude.native Claude.pi Claude.diverged healed).mp converged
  have side : freshSide Claude.native.grant Claude.pi.grant = .native := by decide +kernel
  rw [CarriesWhole, side] at whole
  cases whole.1 rfl

/-- Pi's store reads back the access token of one copy with the refresh token of the other, and
the next reconcile writes again. -/
theorem reconcilePair_mixes :
    Diverged Claude.runtime.toTokenRuntime Claude.pairing Claude.stores Claude.native Claude.pi ∧
      (readPi Claude.runtime.toTokenRuntime Claude.pairing
        (reconcilePair Claude.runtime Claude.pairing true none Claude.stores).2).map
          StoreCopy.tokens = some ("later", some "kept") ∧
      (reconcilePair Claude.runtime Claude.pairing true none
        (reconcilePair Claude.runtime Claude.pairing true none Claude.stores).2).1.status =
          .rewrotePi :=
  ⟨Claude.diverged, by decide +kernel, by decide +kernel⟩

end AiSwitcher.Reconcile
