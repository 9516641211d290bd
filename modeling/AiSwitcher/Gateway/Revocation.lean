/-
This file proves when a revocation is permanent. An update of an application reads it from
the cache and writes the whole application back, with the state that it has read, or as active if
the cache does not have it. So an update that has read an application before it was
revoked, or before the cache was loaded, makes it active again.

In runs in which the store takes no such write, none reaches the cache late, and the
first warm-up installs no application from before its revocation, an application whose
revocation was answered stays revoked in the store and in the cache, across restarts, and none of
its tokens is admitted.
-/

import AiSwitcher.Gateway.Admin
import AiSwitcher.Gateway.ReadYourWrites

namespace AiSwitcher.Gateway

open JavaScript CacheRun RunningGateway

variable {Settings : Type}

/-! ### A revoked application in the store -/

def Revoked (tables : Tables Settings) (name : String) : Prop :=
  ∃ app, tables.getApp name = some app ∧ app.state = .revoked

/-- The store has taken no application as active where it had it revoked. -/
def Guarded (history : History Settings) : Prop :=
  ∀ index write, history.log[index]? = some write → Keeps (history.storeAt index) write

section InTheStore

variable {history : History Settings} {name : String}

theorem state_of_not_active {state : AppState} (notActive : state ≠ .active) : state = .revoked := by
  cases state with
  | active => exact absurd rfl notActive
  | revoked => rfl

/-- An update of a revoked application has it revoked. -/
theorem Guarded.put (guarded : Guarded history) {index : Nat}
    (revoked : Revoked (history.storeAt index) name) {put : GatewayApp Settings}
    (isPut : history.log[index]? = some (.putApp put)) (same : put.name = name) :
    put.state = .revoked := by
  obtain ⟨app, isApp, isRevoked⟩ := revoked
  refine state_of_not_active fun active => ?_
  have isActive := guarded index _ isPut active app (same ▸ isApp)
  rw [isRevoked] at isActive
  cases isActive

theorem Revoked.write {tables : Tables Settings} (revoked : Revoked tables name)
    {write : Write Settings} (accepted : tables.Accepts write)
    (puts : ∀ put, write = .putApp put → put.name = name → put.state = .revoked) :
    Revoked (tables.write write) name := by
  obtain ⟨app, isApp, isRevoked⟩ := revoked
  rw [Revoked, Tables.getApp_write accepted, isApp]
  cases write with
  | putApp put =>
    rw [Write.appOf]
    split
    next same => exact ⟨put, rfl, puts put rfl same.symm⟩
    next => exact ⟨app, rfl, isRevoked⟩
  | revokeApp other =>
    rw [Write.appOf]
    split
    · exact ⟨_, rfl, rfl⟩
    · exact ⟨app, rfl, isRevoked⟩
  | addToken rec => exact ⟨app, rfl, isRevoked⟩
  | expireTokens other at_ => exact ⟨app, rfl, isRevoked⟩

/-- A revoked application stays revoked. -/
theorem Guarded.stays (guarded : Guarded history) (accepted : history.Accepted) {count later : Nat}
    (revoked : Revoked (history.storeAt count) name) (after : count ≤ later) :
    Revoked (history.storeAt later) name := by
  induction later, after using Nat.le_induction with
  | base => exact revoked
  | succ later _ inductionHypothesis =>
    cases isWrite : history.log[later]? with
    | none =>
      rw [storeAt_succ_of_none isWrite]
      exact inductionHypothesis
    | some write =>
      rw [storeAt_succ isWrite]
      refine inductionHypothesis.write (accepted later write isWrite) fun put isPut same => ?_
      exact guarded.put inductionHypothesis (isPut ▸ isWrite) same

/-- An application that was there stays there. -/
theorem getApp_storeAt_ne_none (accepted : history.Accepted) {count later : Nat}
    (isThere : (history.storeAt count).getApp name ≠ none) (after : count ≤ later) :
    (history.storeAt later).getApp name ≠ none := by
  induction later, after using Nat.le_induction with
  | base => exact isThere
  | succ later _ inductionHypothesis =>
    cases isWrite : history.log[later]? with
    | none =>
      rw [storeAt_succ_of_none isWrite]
      exact inductionHypothesis
    | some write =>
      rw [storeAt_succ isWrite, Tables.getApp_write (accepted later write isWrite)]
      exact appOf_ne_none inductionHypothesis write

/-- A revocation that the store has taken. -/
theorem revoked_of_revokeApp (accepted : history.Accepted) {index : Nat}
    (isWrite : history.log[index]? = some (.revokeApp name))
    (isThere : (history.storeAt index).getApp name ≠ none) :
    Revoked (history.storeAt (index + 1)) name := by
  obtain ⟨app, isApp⟩ := Option.ne_none_iff_exists'.mp isThere
  rw [Revoked, storeAt_succ isWrite, Tables.getApp_write (accepted index _ isWrite), isApp,
    Write.appOf, if_pos rfl]
  exact ⟨_, rfl, rfl⟩

end InTheStore

/-! ### A revoked application in the cache -/

variable {site : CacheRun Settings} {name : String}

/-- An application was revoked when the cache was made, or its revocation has reached the cache. -/
def Settled (site : CacheRun Settings) (name : String) : Prop :=
  ∃ count ≤ site.log.length, Revoked (site.storeAt count) name ∧
    (count = 0 ∨ ∃ index ∈ site.reached, count = index + 1 ∧
      site.log[index]? = some (.revokeApp name))

/-- A cache of one gateway from its start. -/
structure SiteSound (site : CacheRun Settings) : Prop where
  life : ∃ initial events, site = (CacheRun.new initial).runs events
  guarded : Guarded site.toHistory
  known : ∀ name, site.cache.getApp name ≠ none → site.store.getApp name ≠ none
  cached : ∀ name, Settled site name → ∀ app, site.cache.getApp name = some app →
    app.state = .revoked

theorem SiteSound.accepted (sound : SiteSound site) : site.toHistory.Accepted := by
  obtain ⟨initial, events, rfl⟩ := sound.life
  exact accepted_runs (accepted_new initial) events

theorem SiteSound.tracks (sound : SiteSound site) : Tracks site.toHistory site := by
  obtain ⟨initial, events, rfl⟩ := sound.life
  exact (tracks_new (before_runs events)).runs events ⟨rfl, List.prefix_refl _⟩

theorem SiteSound.isRevoked (sound : SiteSound site) (settled : Settled site name) :
    Revoked site.store name := by
  obtain ⟨count, atMost, revoked, -⟩ := settled
  exact sound.guarded.stays sound.accepted revoked atMost

theorem life_step (life : ∃ initial events, site = (CacheRun.new initial).runs events)
    (event : CacheEvent Settings) :
    ∃ initial events, site.step event = (CacheRun.new initial).runs events := by
  obtain ⟨initial, events, rfl⟩ := life
  refine ⟨initial, events ++ [event], ?_⟩
  rw [CacheRun.runs, CacheRun.runs, List.foldl_append]
  rfl

theorem reached_step (event : CacheEvent Settings) : site.reached ⊆ (site.step event).reached := by
  cases event with
  | write write =>
    rw [CacheRun.step]
    split <;> exact List.Subset.refl _
  | reach index =>
    rw [CacheRun.step]
    split
    · split
      · exact List.Subset.refl _
      · exact List.subset_cons_self _ _
    · exact List.Subset.refl _
  | warm => exact List.Subset.refl _
  | list warm =>
    rw [CacheRun.step]
    split <;> exact List.Subset.refl _
  | read warm =>
    rw [CacheRun.step]
    split <;> exact List.Subset.refl _
  | install warm =>
    rw [CacheRun.step]
    split <;> exact List.Subset.refl _
  | abandon warm => exact List.Subset.refl _

theorem Settled.step (settled : Settled site name) (event : CacheEvent Settings) :
    Settled (site.step event) name := by
  obtain ⟨count, atMost, revoked, since⟩ := settled
  have before := before_step site event
  refine ⟨count, atMost.trans before.log.length_le, ?_, since.imp_right ?_⟩
  · rw [← before.storeAt atMost]
    exact revoked
  · rintro ⟨index, isReached, same, isWrite⟩
    exact ⟨index, reached_step event isReached, same, before.get isWrite⟩

theorem siteSound_new (initial : Tables Settings) : SiteSound (CacheRun.new initial) where
  life := ⟨initial, [], rfl⟩
  guarded := by
    intro index write isWrite
    have none : (CacheRun.new initial).log[index]? = none := List.getElem?_nil
    cases none.symm.trans isWrite
  known := fun _ isThere => absurd rfl isThere
  cached := fun _ _ _ isApp => nomatch isApp

/-- The store takes a write. -/
theorem SiteSound.write (sound : SiteSound site) {write : Write Settings}
    (accepts : site.store.Accepts write) (keeps : Keeps site.store write) :
    SiteSound (site.step (.write write)) := by
  have before := before_step site (.write write)
  have life := life_step sound.life (.write write)
  rw [CacheRun.step, if_pos accepts] at before life ⊢
  have accepted : History.Accepted { site.toHistory with log := site.log ++ [write] } := by
    obtain ⟨initial, events, same⟩ := life
    have accepted := accepted_runs (accepted_new initial) events
    rwa [← same] at accepted
  refine { life := life, guarded := ?_, known := ?_, cached := ?_ }
  · intro index added isAdded
    have isAdded : (site.log ++ [write])[index]? = some added := isAdded
    obtain less | last := Nat.lt_or_ge index site.log.length
    · rw [List.getElem?_append_left less] at isAdded
      rw [← before.storeAt less.le]
      exact sound.guarded index added isAdded
    · rw [List.getElem?_append_right last] at isAdded
      have isLast : index - site.log.length < 1 := (List.getElem?_eq_some_iff.mp isAdded).1
      obtain rfl : index = site.log.length := by omega
      obtain rfl : write = added := by simpa using isAdded
      rw [← before.storeAt le_rfl]
      exact keeps
  · intro name isThere
    have was := sound.known name isThere
    rw [CacheRun.store, before.storeAt le_rfl] at was
    exact getApp_storeAt_ne_none accepted was before.log.length_le
  · rintro name ⟨count, atMost, revoked, since⟩
    obtain rfl | ⟨index, isReached, rfl, isWrite⟩ := since
    · rw [← before.storeAt (Nat.zero_le _)] at revoked
      exact sound.cached name ⟨0, Nat.zero_le _, revoked, .inl rfl⟩
    · have less := sound.tracks.inLog index isReached
      rw [← before.storeAt (Nat.succ_le_of_lt less)] at revoked
      have isWrite := before.get_of_lt less isWrite
      exact sound.cached name
        ⟨index + 1, Nat.succ_le_of_lt less, revoked, .inr ⟨index, isReached, rfl, isWrite⟩⟩

/-- No active application reaches the cache after a later revocation. -/
def ReachesInTime (site : CacheRun Settings) (index : Nat) : Prop :=
  ∀ put, site.log[index]? = some (.putApp put) → put.state = .active →
    ∀ later ∈ site.reached, index < later → site.log[later]? ≠ some (.revokeApp put.name)

/-- A write that reaches the cache of a settled application has it revoked. -/
theorem SiteSound.put (sound : SiteSound site) {index : Nat} {put : GatewayApp Settings}
    (isPut : site.log[index]? = some (.putApp put)) (inTime : ReachesInTime site index)
    (settled : Settled site put.name) : put.state = .revoked := by
  refine state_of_not_active fun active => ?_
  obtain ⟨count, -, revoked, since⟩ := settled
  have atMost : count ≤ index := by
    obtain rfl | ⟨revocation, isReached, rfl, isWrite⟩ := since
    · exact Nat.zero_le _
    · have notLater : ¬index < revocation := fun later =>
        inTime put isPut active revocation isReached later isWrite
      have different : revocation ≠ index := by
        rintro rfl
        cases isPut.symm.trans isWrite
      omega
  have isRevoked := sound.guarded.put (sound.guarded.stays sound.accepted revoked atMost) isPut rfl
  rw [active] at isRevoked
  cases isRevoked

/-- A write reaches the cache. -/
theorem SiteSound.reach (sound : SiteSound site) {index : Nat} (inTime : ReachesInTime site index) :
    SiteSound (site.step (.reach index)) := by
  have life := life_step sound.life (.reach index)
  rw [CacheRun.step] at life ⊢
  split
  swap
  · exact sound
  next write isWrite =>
  rw [isWrite] at life
  dsimp only at life
  split
  · exact sound
  next fresh =>
  rw [if_neg fresh] at life
  have less : index < site.log.length := (List.getElem?_eq_some_iff.mp isWrite).1
  refine { life := life, guarded := sound.guarded, known := ?_, cached := ?_ }
  · intro name isThere
    rw [CachedGatewayStore.getApp_write] at isThere
    by_cases was : site.cache.getApp name = none
    · rw [was] at isThere
      have put : (site.storeAt (index + 1)).getApp name ≠ none := by
        rw [storeAt_succ isWrite, Tables.getApp_write (sound.accepted index write isWrite)]
        cases write with
        | putApp put =>
          rw [Write.appOf] at isThere ⊢
          split at isThere
          next same => exact (if_pos same).symm ▸ Option.some_ne_none put
          next => exact absurd rfl isThere
        | revokeApp revoked =>
          rw [Write.appOf] at isThere
          split at isThere <;> exact absurd rfl isThere
        | addToken rec => exact absurd rfl isThere
        | expireTokens other at_ => exact absurd rfl isThere
      exact getApp_storeAt_ne_none sound.accepted put (Nat.succ_le_of_lt less)
    · exact sound.known name was
  · rintro name ⟨count, atMost, revoked, since⟩ app isApp
    rw [CachedGatewayStore.getApp_write] at isApp
    -- Unless this is the revocation itself, the application was settled before.
    have settled (other : write ≠ .revokeApp name) : Settled site name := by
      refine ⟨count, atMost, revoked, since.imp_right ?_⟩
      rintro ⟨revocation, isReached, same, isRevocation⟩
      refine ⟨revocation, (List.mem_cons.mp isReached).resolve_left ?_, same, isRevocation⟩
      rintro rfl
      exact other (Option.some.inj (isWrite.symm.trans isRevocation))
    cases write with
    | putApp put =>
      have settled := settled (by simp)
      rw [Write.appOf] at isApp
      split at isApp
      next same =>
        obtain rfl := Option.some.inj isApp
        exact sound.put isWrite inTime (same ▸ settled)
      next => exact sound.cached name settled app isApp
    | revokeApp other =>
      rw [Write.appOf] at isApp
      split at isApp
      next =>
        obtain ⟨was, -, rfl⟩ := Option.map_eq_some_iff.mp isApp
        rfl
      next different =>
        refine sound.cached name (settled fun same => different ?_) app isApp
        exact (Write.revokeApp.inj same).symm
    | addToken rec => exact sound.cached name (settled (by simp)) app isApp
    | expireTokens other at_ => exact sound.cached name (settled (by simp)) app isApp

/-- A warm-up goes on. -/
theorem SiteSound.refresh (sound : SiteSound site) {event : CacheEvent Settings}
    (isRefresh : event.isRefresh = true)
    (careful : ∀ warm seen apps tokens readAt, event = .install warm →
      site.warms[warm]? = some (.reading seen apps tokens [] readAt) →
      site.cache.loaded = false →
        ∀ index ∈ site.reached, ∀ name, site.log[index]? = some (.revokeApp name) →
          index < readAt (.app name)) :
    SiteSound (site.step event) := by
  have life := life_step sound.life event
  cases event with
  | write write => cases isRefresh
  | reach index => cases isRefresh
  | warm => exact { sound with life := life }
  | abandon warm => exact { sound with life := life }
  | list warm =>
    rw [CacheRun.step] at life ⊢
    split at life
    · exact { sound with life := life }
    · exact sound
  | read warm =>
    rw [CacheRun.step] at life ⊢
    split at life
    · exact { sound with life := life }
    · exact sound
  | install warm =>
    rw [CacheRun.step] at life ⊢
    split at life
    swap
    · exact sound
    next seen apps tokens readAt isWarm =>
    obtain ⟨-, listed, within, snapshot, sees⟩ :=
      sound.tracks.warms _ (List.mem_of_getElem? isWarm)
    unfold installed at life ⊢
    by_cases skips : site.cache.version ≠ seen ∧ site.cache.loaded = true
    · rw [if_pos skips] at life ⊢
      exact { sound with life := life }
    rw [if_neg skips] at life ⊢
    have isRead (name : String) : Members.get (apps.map fun app => (app.name, app)) name =
        (site.storeAt listed).getApp name := by
      rw [snapshot.isListed, map_listApps]
      rfl
    refine { life := life, guarded := sound.guarded, known := ?_, cached := ?_ }
    · intro name isThere
      have isThere : (site.storeAt listed).getApp name ≠ none := isRead name ▸ isThere
      exact getApp_storeAt_ne_none sound.accepted isThere within
    · rintro name ⟨count, -, revoked, since⟩ app isApp
      have atMost : count ≤ listed := by
        obtain rfl | ⟨index, isReached, rfl, isWrite⟩ := since
        · exact Nat.zero_le _
        by_cases same : site.cache.version = seen
        · exact sees same index isReached
        · have notLoaded : site.cache.loaded = false := by
            by_contra isLoaded
            exact skips ⟨same, Bool.not_eq_false _ ▸ isLoaded⟩
          have less := careful warm seen apps tokens readAt rfl isWarm notLoaded index isReached
            name isWrite
          rw [snapshot.appReadAt] at less
          exact less
      obtain ⟨read, isRevoked, state⟩ := sound.guarded.stays sound.accepted revoked atMost
      have isApp : (site.storeAt listed).getApp name = some app := isRead name ▸ isApp
      obtain rfl := Option.some.inj (isRevoked.symm.trans isApp)
      exact state

/-! ### Runs of a gateway -/

/-- A request that revokes an application knows that the store has it. -/
def RequestOk (site : CacheRun Settings) : Request Settings → Prop
  | .arrived _ => True
  | .writing write next => ∀ name, next = .revoked name →
      write = .revokeApp name ∧ site.store.getApp name ≠ none
  | .reaching index next => ∀ name, next = .revoked name →
      site.log[index]? = some (.revokeApp name) ∧ (site.storeAt index).getApp name ≠ none

/-- The agent token at a place was revoked. -/
def AgentRevoked (agents : List AgentTokenRecord) (place : Nat) : Prop :=
  ∃ token, agents[place]? = some token ∧ token.revokedAt ≠ none

structure GatewaySound (gateway : RunningGateway Settings) : Prop where
  site : SiteSound gateway.site
  requests : ∀ request ∈ gateway.requests, RequestOk gateway.site request
  settled : ∀ name ∈ gateway.revoked, Settled gateway.site name
  agents : ∀ place ∈ gateway.revokedAgents, AgentRevoked gateway.agents place

variable {gateway : RunningGateway Settings}

/-- What a request knows stays true. -/
theorem RequestOk.step {request : Request Settings} (sound : SiteSound site)
    (ok : RequestOk site request) (event : CacheEvent Settings) :
    RequestOk (site.step event) request := by
  have before := before_step site event
  cases request with
  | arrived admin => trivial
  | writing write next =>
    intro name isNext
    obtain ⟨same, isThere⟩ := ok name isNext
    have accepted : (site.step event).toHistory.Accepted := accepted_step sound.accepted event
    refine ⟨same, ?_⟩
    rw [CacheRun.store, before.storeAt le_rfl] at isThere
    exact getApp_storeAt_ne_none accepted isThere before.log.length_le
  | reaching index next =>
    intro name isNext
    obtain ⟨isWrite, isThere⟩ := ok name isNext
    have less := (List.getElem?_eq_some_iff.mp isWrite).1
    exact ⟨before.get isWrite, before.storeAt less.le ▸ isThere⟩

/-- A step of the cache, with other requests. -/
theorem GatewaySound.withSite (sound : GatewaySound gateway) (event : CacheEvent Settings)
    (site : SiteSound (gateway.site.step event)) {requests : List (Request Settings)}
    (ok : ∀ request ∈ requests, request ∈ gateway.requests ∨
      RequestOk (gateway.site.step event) request) :
    GatewaySound { gateway with site := gateway.site.step event, requests := requests } where
  site := site
  requests := fun request member => (ok request member).elim
    (fun before => (sound.requests request before).step sound.site event) id
  settled := fun name member => (sound.settled name member).step event
  agents := sound.agents

/-- Other requests. -/
theorem GatewaySound.withRequests (sound : GatewaySound gateway)
    {requests : List (Request Settings)}
    (ok : ∀ request ∈ requests, request ∈ gateway.requests ∨ RequestOk gateway.site request) :
    GatewaySound { gateway with requests := requests } :=
  { sound with
    requests := fun request member => (ok request member).elim (sound.requests request) id }

theorem requestOk_proceed (sound : SiteSound site) {admin : Admin Settings}
    {request : Request Settings} (proceeds : admin.proceed site.cache = some request) :
    RequestOk site request := by
  cases admin with
  | put name settings now =>
    cases proceeds
    exact fun name isNext => nomatch isNext
  | issue name at_ rec =>
    rw [Admin.proceed] at proceeds
    split at proceeds
    · cases proceeds
    split at proceeds
    · cases proceeds
      exact fun name isNext => nomatch isNext
    · cases proceeds
  | revoke name =>
    rw [Admin.proceed] at proceeds
    split at proceeds
    · cases proceeds
    next app isApp =>
      cases proceeds
      rintro _ ⟨⟩
      exact ⟨rfl, sound.known name (isApp ▸ Option.some_ne_none app)⟩

theorem GatewaySound.take (sound : GatewaySound gateway) {request : Nat} {write : Write Settings}
    {next : Next} (isRequest : gateway.requests[request]? = some (.writing write next))
    (keeps : Keeps gateway.site.store write) : GatewaySound (gateway.take request write next) := by
  unfold RunningGateway.take
  split
  next accepts =>
    refine sound.withSite _ (sound.site.write accepts keeps) fun other member => ?_
    obtain member | rfl := List.mem_or_eq_of_mem_set member
    · exact .inl member
    refine .inr fun name isNext => ?_
    obtain ⟨rfl, isThere⟩ := sound.requests _ (List.mem_of_getElem? isRequest) name isNext
    have before := before_step gateway.site (.write (.revokeApp name))
    rw [CacheRun.step, if_pos accepts] at before ⊢
    refine ⟨?_, ?_⟩
    · show (gateway.site.log ++ [_])[gateway.site.log.length]? = _
      rw [List.getElem?_concat_length]
    · rw [← before.storeAt le_rfl]
      exact isThere
  next => exact sound.withRequests fun other member => .inl (List.mem_of_mem_eraseIdx member)

theorem settled_reach (sound : SiteSound site) {index : Nat}
    (isWrite : site.log[index]? = some (.revokeApp name))
    (isThere : (site.storeAt index).getApp name ≠ none) :
    Settled (site.step (.reach index)) name := by
  have less : index < site.log.length := (List.getElem?_eq_some_iff.mp isWrite).1
  have revoked := revoked_of_revokeApp sound.accepted isWrite isThere
  rw [CacheRun.step, isWrite]
  dsimp only
  split
  next isReached =>
    exact ⟨index + 1, Nat.succ_le_of_lt less, revoked, .inr ⟨index, isReached, rfl, isWrite⟩⟩
  next =>
    exact ⟨index + 1, Nat.succ_le_of_lt less, revoked,
      .inr ⟨index, List.mem_cons_self, rfl, isWrite⟩⟩

theorem GatewaySound.goOn (sound : GatewaySound gateway) {request index : Nat} {next : Next}
    (isRequest : gateway.requests[request]? = some (.reaching index next))
    (inTime : ReachesInTime gateway.site index) : GatewaySound (gateway.goOn request index next) := by
  have site := sound.site.reach inTime
  unfold RunningGateway.goOn
  cases next with
  | answer =>
    exact sound.withSite _ site fun other member => .inl (List.mem_of_mem_eraseIdx member)
  | addToken rec =>
    refine sound.withSite _ site fun other member => ?_
    obtain member | rfl := List.mem_or_eq_of_mem_set member
    · exact .inl member
    · exact .inr fun name isNext => nomatch isNext
  | revoked name =>
    obtain ⟨isWrite, isThere⟩ :=
      sound.requests _ (List.mem_of_getElem? isRequest) name rfl
    have others : ∀ other ∈ gateway.requests.eraseIdx request, other ∈ gateway.requests ∨
        RequestOk (gateway.site.step (.reach index)) other :=
      fun other member => .inl (List.mem_of_mem_eraseIdx member)
    have reached := sound.withSite (.reach index) site others
    refine { reached with settled := fun other member => ?_ }
    obtain rfl | member := List.mem_cons.mp member
    · exact settled_reach sound.site isWrite isThere
    · exact (sound.settled other member).step _

/-- A restart: what was revoked is revoked in the tables that the new cache begins with. -/
theorem GatewaySound.restart (sound : GatewaySound gateway) (orphans : List (Write Settings)) :
    GatewaySound { gateway with
      site := .new gateway.site.store, requests := [], orphans := orphans } where
  site := siteSound_new _
  requests := fun _ member => nomatch member
  settled := fun name member =>
    ⟨0, le_rfl, sound.site.isRevoked (sound.settled name member), .inl rfl⟩
  agents := sound.agents

theorem agentRevoked_append {agents : List AgentTokenRecord} {place : Nat}
    (revoked : AgentRevoked agents place) (token : AgentTokenRecord) :
    AgentRevoked (agents ++ [token]) place := by
  obtain ⟨held, isHeld, isRevoked⟩ := revoked
  refine ⟨held, ?_, isRevoked⟩
  rw [List.getElem?_append_left (List.getElem?_eq_some_iff.mp isHeld).1]
  exact isHeld

theorem agentRevoked_revokeAgentTokens {agents : List AgentTokenRecord} {place : Nat}
    (revoked : AgentRevoked agents place) (identity at_ : String) :
    AgentRevoked (revokeAgentTokens agents identity at_) place := by
  obtain ⟨held, isHeld, isRevoked⟩ := revoked
  refine ⟨held, ?_, isRevoked⟩
  rw [revokeAgentTokens, List.getElem?_map, isHeld]
  exact congrArg some (if_neg fun both => isRevoked both.2)

/-- The agent tokens of an identity are revoked. -/
theorem agentRevoked_of_identity {agents : List AgentTokenRecord} {place : Nat}
    {identity : String} (at_ : String)
    (isIdentity : (agents[place]?).any (fun token => token.identity = identity) = true) :
    AgentRevoked (revokeAgentTokens agents identity at_) place := by
  obtain ⟨token, isToken, same⟩ := (Option.any_eq_true _ _).mp isIdentity
  have same : token.identity = identity := of_decide_eq_true same
  rw [AgentRevoked, revokeAgentTokens, List.getElem?_map, isToken]
  by_cases revoked : token.revokedAt = none
  · exact ⟨_, congrArg some (if_pos ⟨same, revoked⟩), Option.some_ne_none at_⟩
  · exact ⟨_, congrArg some (if_neg fun both => revoked both.2), revoked⟩

theorem GatewaySound.step (sound : GatewaySound gateway) (event : GatewayEvent Settings)
    (careful : gateway.Careful event) : GatewaySound (gateway.step event) := by
  cases event with
  | request admin =>
    refine sound.withRequests fun request member => ?_
    obtain member | member := List.mem_append.mp member
    · exact .inl member
    · exact .inr (List.mem_singleton.mp member ▸ trivial)
  | proceed request =>
    rw [RunningGateway.step]
    split
    swap
    · exact sound
    split
    next writing proceeds =>
      refine sound.withRequests fun other member => ?_
      obtain member | rfl := List.mem_or_eq_of_mem_set member
      · exact .inl member
      · exact .inr (requestOk_proceed sound.site proceeds)
    next => exact sound.withRequests fun other member => .inl (List.mem_of_mem_eraseIdx member)
  | store request =>
    rw [RunningGateway.step]
    split
    next write next isRequest => exact sound.take isRequest (careful write next isRequest)
    next => exact sound
  | reach request =>
    rw [RunningGateway.step]
    split
    next index next isRequest =>
      exact sound.goOn isRequest fun put isPut active => careful index next put isRequest isPut active
    next => exact sound
  | fail request =>
    exact sound.withRequests fun other member => .inl (List.mem_of_mem_eraseIdx member)
  | refresh event =>
    rw [RunningGateway.step]
    split
    next isRefresh =>
      refine sound.withSite event (sound.site.refresh isRefresh ?_) fun other member => .inl member
      rintro warm seen apps tokens readAt rfl isWarm notLoaded
      exact careful seen apps tokens readAt isWarm notLoaded
    next => exact sound
  | restart => exact sound.restart _
  | orphan write =>
    rw [RunningGateway.step]
    split
    swap
    · exact sound
    next orphan isOrphan =>
    by_cases accepts : gateway.site.store.Accepts orphan
    · have next := sound.withSite _ (sound.site.write accepts (careful orphan isOrphan))
        fun other member => .inl member
      exact { next with }
    · have same : gateway.site.step (.write orphan) = gateway.site := if_neg accepts
      rw [same]
      exact { sound with }
  | issueAgent token =>
    exact { sound with agents := fun place member => agentRevoked_append (sound.agents place member) token }
  | revokeAgents identity at_ =>
    refine { sound with agents := fun place member => ?_ }
    obtain member | member := List.mem_append.mp member
    · exact agentRevoked_revokeAgentTokens (sound.agents place member) identity at_
    · exact agentRevoked_of_identity at_ (List.mem_filter.mp member).2

theorem GatewaySound.runs (sound : GatewaySound gateway) (events : List (GatewayEvent Settings))
    (careful : CarefulRun gateway events) : GatewaySound (gateway.runs events) := by
  induction events generalizing gateway with
  | nil => exact sound
  | cons event rest inductionHypothesis =>
    exact inductionHypothesis (sound.step event careful.1) careful.2

theorem gatewaySound_new (initial : Tables Settings) :
    GatewaySound (RunningGateway.new initial) where
  site := siteSound_new initial
  requests := fun _ member => nomatch member
  settled := fun _ member => nomatch member
  agents := fun _ member => nomatch member

theorem verifyToken_of_not_active {runtime : TokenRuntime} {app : Option (GatewayApp Settings)}
    (notActive : ∀ read, app = some read → read.state = .revoked) (tokens : List TokenRecord)
    (raw : String) (now : Int) : verifyToken runtime app tokens raw now = false := by
  unfold verifyToken
  split
  next read isRead _ =>
    rw [notActive _ rfl]
    rfl
  next => rfl

theorem revokedAt_of_authAgentToken {runtime : TokenRuntime} {agents : List AgentTokenRecord}
    {raw : String} {token : AgentTokenRecord}
    (admitted : authAgentToken runtime agents raw = some token) : token.revokedAt = none := by
  unfold authAgentToken at admitted
  split at admitted
  · have found := (Option.filter_eq_some_iff.mp admitted).1
    have isFound := List.find?_some found
    exact (of_decide_eq_true isFound).2
  · cases admitted

namespace Update

def web : GatewayApp Unit := ⟨"web", (), .active, "2026-10-19T00:00:00.000Z", none⟩

def tables : Tables Unit where
  apps := [("web", web)]
  tokens := []
  named := by
    rintro field (_ | ⟨_, ⟨⟩⟩)
    rfl
  owned := fun _ member => nomatch member

def runtime : TokenRuntime := ⟨fun _ => "", fun _ => none⟩

def warmed : List (GatewayEvent Unit) :=
  [.refresh .warm, .refresh (.list 0), .refresh (.read 0), .refresh (.install 0)]

def revoke : List (GatewayEvent Unit) :=
  [.request (.revoke "web"), .proceed 0, .store 0, .reach 0]

/-- An update has read the application when the revocation comes, and is written after it was
answered. -/
def updated : List (GatewayEvent Unit) :=
  [.request (.put "web" () "2026-10-19T00:00:01.000Z"), .proceed 0, .request (.revoke "web"),
    .proceed 1, .store 1, .reach 1, .store 0, .reach 0]

end Update

end AiSwitcher.Gateway
