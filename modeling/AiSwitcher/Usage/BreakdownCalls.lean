/-
This file proves that no refresh of a usage breakdown is lost, in every interleaving of requests
and drains that do not disturb each other, and shows a request that is lost because a drain was
already running the request that it found.

What the requests of a call are covered by and what a drain knows of its own run are assertions
that no step of another call ends.
-/

import AiSwitcher.Usage.BreakdownWorld
import Mathlib.Algebra.Order.BigOperators.Group.List

namespace AiSwitcher.Usage.Breakdown

open JavaScript Interrupted

/-! ### Normalised queries -/

section Queries

variable (runtime : BreakdownRuntime)

/-- A query that is kept under its key. -/
def Valid (key : String) (query : Query) : Prop :=
  normalizeUsageBreakdownRequest runtime query.stored = .ok query ∧ runtime.requestKey query = key

variable {runtime}

theorem normalizedTool_stable {tool : Option String} {normalized : Option String}
    (isNormalized : normalizedTool runtime tool = .ok normalized) :
    normalizedTool runtime normalized = .ok normalized := by
  unfold normalizedTool at isNormalized
  split at isNormalized
  · obtain rfl := Except.ok.inj isNormalized
    rfl
  · rename_i given
    dsimp only at isNormalized
    split at isNormalized
    · rename_i known
      obtain rfl := Except.ok.inj isNormalized
      have trimmed : ∀ name ∈ TOOL_NAMES, trim name = name := by decide +kernel
      simp only [normalizedTool, runtime.nfc_tool _ known, trimmed _ known,
        runtime.toLowerCase_tool _ known, if_pos known]
    · exact nomatch isNormalized

theorem normalizedIdentity_stable {identity : Option String} {normalized : Option String}
    (isNormalized : normalizedIdentity runtime identity = .ok normalized) :
    normalizedIdentity runtime normalized = .ok normalized := by
  unfold normalizedIdentity at isNormalized
  split at isNormalized
  · obtain rfl := Except.ok.inj isNormalized
    rfl
  · dsimp only at isNormalized
    split at isNormalized
    · exact nomatch isNormalized
    · rename_i accepted
      obtain rfl := Except.ok.inj isNormalized
      simp only [normalizedIdentity, runtime.nfc_trim, trim_trim, if_neg accepted]

theorem clampBreakdownDays_bounds (days : ℚ) :
    MIN_BREAKDOWN_DAYS ≤ clampBreakdownDays days ∧ clampBreakdownDays days ≤ MAX_BREAKDOWN_DAYS := by
  unfold clampBreakdownDays
  split
  · decide
  · rename_i enough
    exact ⟨le_min (by decide) (not_lt.mp enough), min_le_left _ _⟩

theorem clampBreakdownDays_stable (days : ℚ) :
    clampBreakdownDays (clampBreakdownDays days : ℤ) = clampBreakdownDays days := by
  obtain ⟨low, high⟩ := clampBreakdownDays_bounds days
  rw [clampBreakdownDays, Int.floor_intCast, if_neg (not_lt.mpr low), min_eq_right high]

/-- A query that was normalised is normal when it is read back. -/
theorem normalize_stable {input : UsageBreakdownRequest} {query : Query}
    (isNormalized : normalizeUsageBreakdownRequest runtime input = .ok query) :
    Valid runtime (runtime.requestKey query) query := by
  refine ⟨?_, rfl⟩
  unfold normalizeUsageBreakdownRequest at isNormalized ⊢
  cases isTool : normalizedTool runtime input.tool with
  | error message =>
    rw [isTool] at isNormalized
    exact nomatch isNormalized
  | ok tool =>
    cases isIdentity : normalizedIdentity runtime input.identity with
    | error message =>
      rw [isTool, isIdentity] at isNormalized
      exact nomatch isNormalized
    | ok identity =>
      rw [isTool, isIdentity] at isNormalized
      obtain rfl := Except.ok.inj isNormalized
      dsimp only [NormalizedUsageBreakdownRequest.stored]
      rw [normalizedTool_stable isTool, normalizedIdentity_stable isIdentity, Option.getD_some,
        clampBreakdownDays_stable]
      rfl

theorem queryFor_stored {key : String} {query : Query} (valid : Valid runtime key query) :
    queryFor runtime key query.stored = some query := by
  unfold queryFor
  rw [valid.1]
  exact if_pos valid.2

theorem valid_of_queryFor {key : String} {input : UsageBreakdownRequest} {query : Query}
    (found : queryFor runtime key input = some query) : Valid runtime key query := by
  unfold queryFor at found
  split at found
  · rename_i normalized isNormalized
    split at found
    · rename_i isKey
      obtain rfl := Option.some.inj found
      exact isKey ▸ normalize_stable isNormalized
    · exact nomatch found
  · exact nomatch found

theorem valid_of_request {Data Thread : Type} {world : World Data Thread} {key : String}
    {request : LoadedRequest} (found : world.request runtime key = some request) :
    Valid runtime key request.query := by
  obtain ⟨_, -, found⟩ := Option.bind_eq_some_iff.mp found
  obtain ⟨query, isQuery, rfl⟩ := Option.map_eq_some_iff.mp found
  exact valid_of_queryFor isQuery

theorem valid_of_cachedQuery {Data Thread : Type} {world : World Data Thread} {key : String}
    {query : Query} (found : world.cachedQuery runtime key = some query) :
    Valid runtime key query := by
  obtain ⟨_, -, found⟩ := Option.bind_eq_some_iff.mp found
  exact valid_of_queryFor found

end Queries

/-! ### Calls that do not disturb each other -/

section Calls

variable {Data Thread : Type} [DecidableEq Thread]

def nobody : World Data Thread → World Data Thread → Prop := fun _ _ => False

/-- Every answer there can be. -/
def answers (runtime : BreakdownRuntime) (thread : Thread) (Answer : Type)
    (action : BreakdownAction Data Answer) (choice : Choice Data) (world : World Data Thread) :
    Option (Answer × World Data Thread) :=
  some (answer runtime thread action choice world)

/-- A request does not find the very request that the drain is running since before it was made; a
query that was requested but not cached when a call for all known queries listed the cache is found
requested, if no run of it that began after the call has ended; and the drain removes no file but
the one that it has read. -/
def Undisturbed (runtime : BreakdownRuntime) (thread : Thread) {Answer : Type}
    (action : BreakdownAction Data Answer) (world : World Data Thread) : Prop :=
  match action with
  | .checkRequest key => ∀ found, world.request runtime key = some found →
      ∀ run, world.running = some run → run.key = key → run.requestId = found.requestId →
        world.called thread < run.since
  | .listRequests => ∀ key ∈ world.unlisted thread, (world.request runtime key).isSome ∨
      ∃ start, world.finished key = some start ∧ world.called thread < start
  | .loadRequest key => key ∈ world.unlisted thread → (world.request runtime key).isSome ∨
      ∃ start, world.finished key = some start ∧ world.called thread < start
  | .unlinkRequest key seen => (world.request runtime key).map LoadedRequest.requestId = seen
  | _ => True

variable (runtime : BreakdownRuntime)

/-- The answers to steps that are not disturbed. -/
def undisturbed (thread : Thread) : Behaviour (BreakdownAction Data) (World Data Thread) :=
  fun Answer action before result after =>
    Chosen (answers runtime) thread Answer action before result after ∧
      Undisturbed runtime thread action before

variable {runtime} {thread other : Thread} {world before after : World Data Thread}
  {First Result : Type} {post : Except String Result → World Data Thread → Prop}

variable (runtime thread) in
/-- All steps of the call are moves, whatever the others do meanwhile, and it ends in `post`. -/
abbrev Keeps (post : Except String Result → World Data Thread → Prop)
    (program : BreakdownCall Data Result) (world : World Data Thread) : Prop :=
  program.secure (Move runtime) nobody (undisturbed runtime) thread post world

theorem keeps_step {assertion : World Data Thread → Prop}
    (stable : Stable (Move runtime) nobody thread assertion) {Answer : Type}
    {action : BreakdownAction Data Answer} {next : Answer → BreakdownCall Data Result}
    (holds : assertion world)
    (goesOn : ∀ later choice, assertion later → Undisturbed runtime thread action later →
      Move runtime thread later (answer runtime thread action choice later).2 ∧
        Keeps runtime thread post (next (answer runtime thread action choice later).1)
          (answer runtime thread action choice later).2) :
    Keeps runtime thread post (.perform action >>= next) world := by
  rintro later relies result after ⟨⟨choice, answered⟩, still⟩
  have isAnswer := Option.some.inj answered
  obtain rfl : (answer runtime thread action choice later).1 = result := congrArg Prod.fst isAnswer
  obtain rfl : (answer runtime thread action choice later).2 = after := congrArg Prod.snd isAnswer
  exact goesOn later choice (stable.relied relies holds) still

theorem keeps_done {assertion : World Data Thread → Prop}
    (stable : Stable (Move runtime) nobody thread assertion) {result : Result}
    (holds : assertion world) (ends : ∀ later, assertion later → post (.ok result) later) :
    Keeps runtime thread post (.done result) world :=
  fun later relies => ends later (stable.relied relies holds)

/-! ### What a call knows -/

theorem Move.unasked (move : Move runtime other before after) (differs : thread ≠ other) :
    after.called thread = before.called thread ∧ after.owed thread = before.owed thread ∧
      after.unlisted thread = before.unlisted thread := by
  cases move with
  | call owed unlisted =>
    exact ⟨Function.update_of_ne differs .., Function.update_of_ne differs ..,
      Function.update_of_ne differs ..⟩
  | keep run isActive runs settled =>
    rw [finish_running run runs]
    exact ⟨rfl, rfl, rfl⟩
  | remove run isActive runs settled same =>
    rw [finish_running run (show (before.removeRequest run.key).running = some run from runs)]
    exact ⟨rfl, rfl, rfl⟩
  | drop key isActive idle unreadable =>
    rw [finish_idle (show (before.removeRequest key).running = none from idle)]
    exact ⟨rfl, rfl, rfl⟩
  | _ => exact ⟨rfl, rfl, rfl⟩

theorem Move.cached (move : Move runtime thread before after) {key : String}
    (cached : (before.cachedQuery runtime key).isSome) :
    (after.cachedQuery runtime key).isSome := by
  cases move with
  | cache run query results now isActive runs valid =>
    unfold World.writeCache World.cachedQuery loadCacheQuery loadCache at *
    simp only [Members.get_set]
    split
    · rename_i same
      subst same
      simp [Option.filter, valid]
    · exact cached
  | keep run isActive runs settled =>
    unfold World.cachedQuery
    rwa [finish_dirs]
  | remove run isActive runs settled same =>
    unfold World.cachedQuery
    rwa [finish_dirs]
  | drop dropped isActive idle unreadable =>
    unfold World.cachedQuery
    rwa [finish_dirs]
  | _ => exact cached

variable (runtime) in
/-- A call was made at a time for some queries, the requests for some of them are covered, and
others are cached. -/
structure Asked (thread : Thread) (time : Nat) (owed unlisted covered cached : List String)
    (world : World Data Thread) : Prop where
  sound : Sound runtime world
  called : world.called thread = time
  owes : world.owed thread = owed
  unlists : world.unlisted thread = unlisted
  covers : ∀ key ∈ covered, Covered runtime key time world
  caches : ∀ key ∈ cached, (world.cachedQuery runtime key).isSome

variable {time : Nat} {owed unlisted covered cached : List String}

omit [DecidableEq Thread] in
theorem Asked.past (asked : Asked runtime thread time owed unlisted covered cached world) :
    time < world.clock :=
  asked.called ▸ asked.sound.called thread

theorem Asked.step (asked : Asked runtime thread time owed unlisted covered cached before)
    (move : Move runtime other before after)
    (same : after.called thread = before.called thread ∧
      after.owed thread = before.owed thread ∧ after.unlisted thread = before.unlisted thread) :
    Asked runtime thread time owed unlisted covered cached after where
  sound := asked.sound.move move
  called := same.1.trans asked.called
  owes := same.2.1.trans asked.owes
  unlists := same.2.2.trans asked.unlists
  covers key member := (asked.covers key member).move asked.sound move asked.past
  caches key member := move.cached (asked.caches key member)

theorem Asked.stable : Stable (Move runtime) nobody thread
    (fun world : World Data Thread =>
      Asked runtime thread time owed unlisted covered cached world) := by
  intro before after others asked
  obtain none | ⟨other, differs, move⟩ := others
  · exact none.elim
  · exact asked.step move (move.unasked differs.symm)

omit [DecidableEq Thread] in
theorem Asked.cover (asked : Asked runtime thread time owed unlisted covered cached world)
    {key : String} (isCovered : Covered runtime key time world) :
    Asked runtime thread time owed unlisted (key :: covered) cached world := by
  refine { asked with covers := fun other member => ?_ }
  obtain rfl | member := List.mem_cons.mp member
  · exact isCovered
  · exact asked.covers other member

/-! ### Requests -/

theorem keeps_enqueue {query : Query} {key : String} (valid : Valid runtime key query)
    {post : Except String Unit → World Data Thread → Prop}
    (asked : Asked runtime thread time owed unlisted covered cached world)
    (ends : ∀ later, Asked runtime thread time owed unlisted (key :: covered) cached later →
      post (.ok ()) later) :
    Keeps runtime thread post (enqueue runtime query) world := by
  obtain ⟨isNormal, rfl⟩ := valid
  refine keeps_step Asked.stable asked fun later choice asked undisturbed => ⟨.same, ?_⟩
  split
  · rename_i found isFound
    refine keeps_done Asked.stable (asked.cover (.inl ⟨found, isFound, ?_⟩)) ends
    intro run runs isKey isId
    rw [← asked.called]
    exact undisturbed found isFound run runs isKey isId
  · show Keeps runtime thread post (.perform (.writeRequest _ query) >>= .done) later
    refine keeps_step Asked.stable asked fun later choice asked _ => ?_
    have isQuery := queryFor_stored ⟨isNormal, rfl⟩
    have move : Move runtime thread later _ := .write (runtime.requestKey query) query choice.now
      isQuery
    refine ⟨move, keeps_done Asked.stable ((asked.step move ⟨rfl, rfl, rfl⟩).cover
      (.inl ⟨⟨later.clock, query⟩, by simp [isQuery], fun run runs _ isId => ?_⟩)) ends⟩
    exact absurd isId (asked.sound.runs run runs).2.2.1.ne

theorem sound_stable : Stable (Move runtime) nobody thread
    (fun world : World Data Thread => Sound runtime world) := by
  intro before after others sound
  obtain none | ⟨other, differs, move⟩ := others
  · exact none.elim
  · exact sound.move move

/-- A call has returned, and what it asked for is covered. -/
theorem keeps_returned {result : Result} (covers : ∀ key ∈ owed, key ∈ covered)
    (asked : Asked runtime thread time owed unlisted covered cached world) :
    Keeps runtime thread (fun _ _ => True) (.perform .returned >>= fun _ => .done result) world := by
  refine keeps_step Asked.stable asked fun later choice asked _ => ⟨.returned ?_, fun _ _ => trivial⟩
  intro key member
  rw [asked.owes] at member
  rw [asked.called]
  exact asked.covers key (covers key member)

theorem keeps_requestUsageBreakdownRefresh {input : UsageBreakdownRequest}
    (sound : Sound runtime world) :
    Keeps runtime thread (fun _ _ => True) (requestUsageBreakdownRefresh runtime input) world := by
  unfold requestUsageBreakdownRefresh
  split
  · exact fun _ _ => trivial
  · rename_i query isNormalized
    refine keeps_step sound_stable sound fun later choice sound _ => ?_
    have move : Move runtime thread later (later.call thread [runtime.requestKey query] []) :=
      .call _ _
    have asked : Asked runtime thread later.clock [runtime.requestKey query] [] [] []
        (later.call thread [runtime.requestKey query] []) :=
      ⟨sound.move move, Function.update_self .., Function.update_self .., Function.update_self ..,
        nofun, nofun⟩
    refine ⟨move, Program.secure_bind _ _ (keeps_enqueue (normalize_stable isNormalized) asked ?_)⟩
    intro later asked
    show Keeps runtime thread _ (.perform .returned >>= fun _ => .done ()) later
    exact keeps_returned (fun _ member => member) asked

/-- Every cached query is among those that were loaded. -/
theorem keeps_loadKnownCached {keys : List String} :
    ∀ {post : Except String (List (String × Query)) → World Data Thread → Prop}
      {world : World Data Thread},
      Asked runtime thread time owed unlisted covered cached world →
      (∀ result later, Asked runtime thread time owed unlisted covered cached later →
        (∀ entry ∈ result, Valid runtime entry.1 entry.2) →
        (∀ key ∈ keys, key ∈ cached → key ∈ result.map Prod.fst) → post (.ok result) later) →
      Keeps runtime thread post (loadKnownCached keys) world := by
  induction keys with
  | nil =>
    intro post world asked ends
    exact keeps_done Asked.stable asked fun later asked => ends [] later asked nofun nofun
  | cons key keys inductionHypothesis =>
    intro post world asked ends
    refine keeps_step Asked.stable asked fun later choice asked _ => ⟨.same, ?_⟩
    have found := asked.caches key
    have valid : ∀ query, later.cachedQuery runtime key = some query → Valid runtime key query :=
      fun query => valid_of_cachedQuery
    dsimp only [answer]
    refine Program.secure_bind _ _ (inductionHypothesis asked fun rest latest asked isValid has => ?_)
    refine keeps_done Asked.stable asked fun final asked => ends _ final asked ?_ ?_
    · intro entry member
      obtain head | tail := List.mem_append.mp member
      · cases isQuery : later.cachedQuery runtime key with
        | none =>
          rw [isQuery] at head
          exact nomatch head
        | some query =>
          rw [isQuery] at head
          obtain rfl := List.mem_singleton.mp head
          exact valid query isQuery
      · exact isValid entry tail
    · intro other member isCached
      rw [List.map_append]
      obtain rfl | member := List.mem_cons.mp member
      · obtain ⟨query, isQuery⟩ := Option.isSome_iff_exists.mp (found isCached)
        rw [isQuery]
        exact List.mem_append_left _ List.mem_cons_self
      · exact List.mem_append_right _ (has other member isCached)

/-- Every query that was requested, but not listed as cached, is among those that were loaded, or
covered by a run. -/
theorem keeps_loadKnownRequested {keys : List String} :
    ∀ {post : Except String (List (String × Query)) → World Data Thread → Prop}
      {covered : List String} {world : World Data Thread},
      Asked runtime thread time owed unlisted covered cached world →
      (∀ result more later, Asked runtime thread time owed unlisted more cached later →
        covered ⊆ more → (∀ entry ∈ result, Valid runtime entry.1 entry.2) →
        (∀ key ∈ keys, key ∈ unlisted → key ∈ result.map Prod.fst ∨ key ∈ more) →
        post (.ok result) later) →
      Keeps runtime thread post (loadKnownRequested keys) world := by
  induction keys with
  | nil =>
    intro post covered world asked ends
    exact keeps_done Asked.stable asked fun later asked =>
      ends [] covered later asked (List.Subset.refl _) nofun nofun
  | cons key keys inductionHypothesis =>
    intro post covered world asked ends
    refine keeps_step Asked.stable asked fun later choice asked undisturbed => ⟨.same, ?_⟩
    dsimp only [answer]
    cases isRequest : later.request runtime key with
    | some request =>
      have valid := valid_of_request isRequest
      refine Program.secure_bind _ _ (inductionHypothesis asked
        fun rest more latest asked grows isValid has => ?_)
      refine keeps_done Asked.stable asked fun final asked => ends _ more final asked grows ?_ ?_
      · intro entry member
        obtain rfl | tail := List.mem_cons.mp member
        · exact valid
        · exact isValid entry tail
      · intro other member isUnlisted
        obtain rfl | member := List.mem_cons.mp member
        · exact .inl List.mem_cons_self
        · exact (has other member isUnlisted).imp_left (List.mem_cons_of_mem _)
    | none =>
      have ended : key ∈ unlisted → Covered runtime key time later := fun isUnlisted => by
        rw [← asked.unlists] at isUnlisted
        obtain isThere | ended := undisturbed isUnlisted
        · rw [isRequest] at isThere
          exact nomatch isThere
        · rw [asked.called] at ended
          exact .inr ended
      by_cases isUnlisted : key ∈ unlisted
      · refine Program.secure_bind _ _ (inductionHypothesis (asked.cover (ended isUnlisted))
          fun rest more latest asked grows isValid has => ?_)
        refine keeps_done Asked.stable asked fun final asked => ends _ more final asked
          (List.Subset.trans (List.subset_cons_self _ _) grows) isValid fun other member => ?_
        obtain rfl | member := List.mem_cons.mp member
        · exact fun _ => .inr (grows List.mem_cons_self)
        · exact has other member
      · refine Program.secure_bind _ _ (inductionHypothesis asked
          fun rest more latest asked grows isValid has => ?_)
        refine keeps_done Asked.stable asked fun final asked =>
          ends _ more final asked grows isValid fun other member => ?_
        obtain rfl | member := List.mem_cons.mp member
        · exact fun isListed => absurd isListed isUnlisted
        · exact has other member

theorem keeps_requestAll {known : List (String × Query)} :
    ∀ {post : Except String Unit → World Data Thread → Prop} {covered : List String}
      {world : World Data Thread}, (∀ entry ∈ known, Valid runtime entry.1 entry.2) →
      Asked runtime thread time owed unlisted covered cached world →
      (∀ more later, Asked runtime thread time owed unlisted more cached later →
        covered ⊆ more → known.map Prod.fst ⊆ more → post (.ok ()) later) →
      Keeps runtime thread post (requestAll runtime known) world := by
  induction known with
  | nil =>
    intro post covered world valid asked ends
    exact keeps_done Asked.stable asked fun later asked =>
      ends covered later asked (List.Subset.refl _) (List.nil_subset _)
  | cons entry known inductionHypothesis =>
    intro post covered world valid asked ends
    obtain ⟨key, query⟩ := entry
    have isValid : Valid runtime key query := valid (key, query) List.mem_cons_self
    unfold requestAll
    rw [isValid.1]
    refine Program.secure_bind _ _ (keeps_enqueue isValid asked fun later asked => ?_)
    refine inductionHypothesis (fun entry member => valid entry (List.mem_cons_of_mem _ member)) asked
      fun more latest asked grows has => ends more latest asked
        (List.Subset.trans (List.subset_cons_self _ _) grows) ?_
    exact List.cons_subset.mpr ⟨grows List.mem_cons_self, has⟩

omit [DecidableEq Thread] in
theorem mem_known {key : String} : key ∈ world.known runtime ↔
    (key ∈ world.dirs.cache.map Prod.fst ∧ (world.cachedQuery runtime key).isSome) ∨
      (key ∈ world.dirs.requests.map Prod.fst ∧ (world.request runtime key).isSome) := by
  rw [World.known, List.mem_append, List.mem_filter, List.mem_filter]

omit [DecidableEq Thread] in
theorem cached_listed {key : String} (isSome : (world.cachedQuery runtime key).isSome) :
    key ∈ world.dirs.cache.map Prod.fst := by
  rw [← Members.hasKey_iff, ← Members.isSome_get]
  obtain ⟨query, found⟩ := Option.isSome_iff_exists.mp isSome
  obtain ⟨cached, isCached, -⟩ := Option.bind_eq_some_iff.mp found
  obtain ⟨joined, -⟩ := Option.filter_eq_some_iff.mp isCached
  obtain ⟨_, isThere, -⟩ := Option.bind_eq_some_iff.mp joined
  rw [isThere]
  rfl

/-- The queries that were loaded as cached or as requested. -/
theorem mem_loaded {cachedOnes requestedOnes : List (String × Query)} {key : String} :
    key ∈ (Members.spread (Members.entries cachedOnes)
        (Members.entries requestedOnes)).map Prod.fst ↔
      key ∈ requestedOnes.map Prod.fst ∨ key ∈ cachedOnes.map Prod.fst := by
  rw [← Members.hasKey_iff, Members.hasKey_spread, Bool.or_eq_true, Members.hasKey_entries,
    Members.hasKey_entries, Members.hasKey_iff, Members.hasKey_iff]

theorem valid_loaded {cachedOnes requestedOnes : List (String × Query)}
    (validCached : ∀ entry ∈ cachedOnes, Valid runtime entry.1 entry.2)
    (validRequested : ∀ entry ∈ requestedOnes, Valid runtime entry.1 entry.2) :
    ∀ entry ∈ Members.spread (Members.entries cachedOnes) (Members.entries requestedOnes),
      Valid runtime entry.1 entry.2 := by
  intro entry member
  obtain inRequested | inCached := Members.mem_spread member
  · exact validRequested entry (Members.mem_of_get (Members.mem_entries.mp inRequested))
  · exact validCached entry (Members.mem_of_get (Members.mem_entries.mp inCached))

theorem keeps_requestKnown (sound : Sound runtime world) :
    Keeps runtime thread (fun _ _ => True) (requestKnownUsageBreakdownsRefresh runtime) world := by
  refine keeps_step sound_stable sound fun start choice sound _ => ?_
  dsimp only [answer]
  generalize isNames : start.dirs.cache.map Prod.fst = cacheNames
  generalize isUnlisted : (start.known runtime).filter
    (fun key => !(start.cachedQuery runtime key).isSome) = unlisted
  have move : Move runtime thread start (start.call thread (start.known runtime) unlisted) :=
    .call _ _
  have asked : Asked runtime thread start.clock (start.known runtime) unlisted []
      (cacheNames.filter fun key => (start.cachedQuery runtime key).isSome)
      (start.call thread (start.known runtime) unlisted) :=
    ⟨sound.move move, Function.update_self .., Function.update_self .., Function.update_self ..,
      nofun, fun key member => (List.mem_filter.mp member).2⟩
  refine ⟨move, Program.secure_bind _ _ (keeps_loadKnownCached asked
    fun cachedOnes later asked validCached hasCached => ?_)⟩
  refine keeps_step Asked.stable asked fun later choice asked undisturbed => ⟨.same, ?_⟩
  dsimp only [answer]
  -- A query that is not listed now was computed by a run that began after the call.
  have askedMore : Asked runtime thread start.clock (start.known runtime) unlisted
      (unlisted.filter fun key => !(later.request runtime key).isSome) [] later := by
    refine ⟨asked.sound, asked.called, asked.owes, asked.unlists, fun key member => ?_, nofun⟩
    obtain ⟨isUnlisted, isGone⟩ := List.mem_filter.mp member
    rw [← asked.unlists] at isUnlisted
    obtain isThere | ended := undisturbed key isUnlisted
    · rw [isThere] at isGone
      exact nomatch isGone
    · rw [asked.called] at ended
      exact .inr ended
  have listed : ∀ key ∈ unlisted, key ∈ later.dirs.requests.map Prod.fst ∨
      key ∈ unlisted.filter fun key => !(later.request runtime key).isSome := by
    intro key member
    cases isThere : (later.request runtime key).isSome with
    | true =>
      obtain ⟨request, found⟩ := Option.isSome_iff_exists.mp isThere
      exact .inl ((Members.hasKey_iff _ _).mp (hasKey_of_request found))
    | false => exact .inr (List.mem_filter.mpr ⟨member, by rw [isThere]; rfl⟩)
  refine Program.secure_bind _ _ (keeps_loadKnownRequested askedMore
    fun requestedOnes more later asked grows validRequested hasRequested => ?_)
  refine Program.secure_bind _ _ (keeps_requestAll (valid_loaded validCached validRequested) asked
    fun most later asked growsMore has => ?_)
  refine keeps_returned (fun key isOwed => ?_) asked
  by_cases isCached : (start.cachedQuery runtime key).isSome
  · have isListed : key ∈ cacheNames := by
      rw [← isNames]
      obtain ⟨isListed, -⟩ | ⟨-, isRequested⟩ := mem_known.mp isOwed
      · exact isListed
      · exact cached_listed isCached
    exact has (mem_loaded.mpr (.inr (hasCached key isListed
      (List.mem_filter.mpr ⟨isListed, isCached⟩))))
  · have isMissing : key ∈ unlisted := by
      rw [← isUnlisted]
      exact List.mem_filter.mpr ⟨isOwed, by simpa using isCached⟩
    obtain isListed | isCovered := listed key isMissing
    · obtain isLoaded | isCovered := hasRequested key isListed isMissing
      · exact has (mem_loaded.mpr (.inl isLoaded))
      · exact growsMore isCovered
    · exact growsMore (grows isCovered)

/-! ### Drains -/

variable (runtime) in
/-- The call is the active drain, and what it runs. -/
structure Drains (thread : Thread) (running : Option Running) (world : World Data Thread) : Prop where
  sound : Sound runtime world
  isActive : world.active = some thread
  isRunning : world.running = running

/-- Only the active drain touches the runs and their results. -/
theorem Move.inactive (move : Move runtime other before after)
    (isActive : before.active = some thread) (differs : other ≠ thread) :
    after.active = before.active ∧ after.running = before.running ∧
      after.computed = before.computed ∧ after.dirs.status = before.dirs.status := by
  have refuse : ∀ {wanted : Prop}, before.active = some other → wanted := fun isOther =>
    absurd (Option.some.inj (isOther.symm.trans isActive)) differs
  cases move with
  | enter free => exact nomatch free.symm.trans isActive
  | leave isOther => exact refuse isOther
  | start key request isOther => exact refuse isOther
  | cache run query results now isOther => exact refuse isOther
  | status run failed now isOther => exact refuse isOther
  | keep run isOther => exact refuse isOther
  | remove run isOther => exact refuse isOther
  | drop key isOther => exact refuse isOther
  | same => exact ⟨rfl, rfl, rfl, rfl⟩
  | call => exact ⟨rfl, rfl, rfl, rfl⟩
  | write => exact ⟨rfl, rfl, rfl, rfl⟩
  | returned => exact ⟨rfl, rfl, rfl, rfl⟩

theorem Drains.stable {running : Option Running} : Stable (Move runtime) nobody thread
    (fun world : World Data Thread => Drains runtime thread running world) := by
  intro before after others drains
  obtain none | ⟨other, differs, move⟩ := others
  · exact none.elim
  · obtain ⟨active, runs, -, -⟩ := move.inactive drains.isActive differs
    exact ⟨drains.sound.move move, active.trans drains.isActive, runs.trans drains.isRunning⟩

/-- What the active drain knows of the results and errors goes on to hold. -/
theorem Drains.stable_and {running : Option Running}
    {knows : (String → Option Nat) → Directory RequestStatus → Prop} :
    Stable (Move runtime) nobody thread (fun world : World Data Thread =>
      Drains runtime thread running world ∧ knows world.computed world.dirs.status) := by
  intro before after others holds
  refine ⟨Drains.stable before after others holds.1, ?_⟩
  obtain none | ⟨other, differs, move⟩ := others
  · exact none.elim
  · obtain ⟨-, -, computed, status⟩ := move.inactive holds.1.isActive differs
    rw [computed, status]
    exact holds.2

/-- The results of the run are cached. -/
def Computed (run : Running) (computed : String → Option Nat) (_ : Directory RequestStatus) : Prop :=
  computed run.key = some run.since

/-- What has become of the run so far: it has failed, or its results are cached. -/
def Settled (run : Running) (computed : String → Option Nat) (status : Directory RequestStatus) :
    Prop :=
  ((loadStatus status run.key).bind RequestStatus.lastErrorAt).isSome = true ∨
    Computed run computed status

variable {run : Running}

/-- The end of a run, once it has failed or its results are cached. -/
theorem keeps_removeRequest {post : Except String Unit → World Data Thread → Prop}
    (drains : Drains runtime thread (some run) world)
    (settled : Settled run world.computed world.dirs.status)
    (ends : ∀ later, Drains runtime thread none later → post (.ok ()) later) :
    Keeps runtime thread post (removeRequestIfUnchanged run.key run.requestId) world := by
  refine keeps_step Drains.stable_and ⟨drains, settled⟩ fun later choice holds _ => ?_
  obtain ⟨drains, settled⟩ := holds
  dsimp only [answer]
  split
  · refine ⟨.same, ?_⟩
    show Keeps runtime thread post (.perform (.unlinkRequest _ _) >>= .done) later
    refine keeps_step Drains.stable_and ⟨drains, settled⟩ fun later choice holds same => ?_
    obtain ⟨drains, settled⟩ := holds
    have move : Move runtime thread later (later.removeRequest run.key).finish :=
      .remove run drains.isActive drains.isRunning settled same
    have idle : Drains runtime thread none (later.removeRequest run.key).finish := by
      refine ⟨drains.sound.move move, ?_, ?_⟩ <;>
        rw [finish_running run (show (later.removeRequest run.key).running = _ from
          drains.isRunning)]
      exact drains.isActive
    exact ⟨move, keeps_done Drains.stable idle ends⟩
  · have move : Move runtime thread later later.finish :=
      .keep run drains.isActive drains.isRunning settled
    have idle : Drains runtime thread none later.finish := by
      refine ⟨drains.sound.move move, ?_, ?_⟩ <;> rw [finish_running run drains.isRunning]
      exact drains.isActive
    exact ⟨move, keeps_done Drains.stable idle ends⟩

/-- The rest of a run: its results are cached, or it is recorded as failed. -/
theorem keeps_results {request : LoadedRequest} {results : Option (List (BreakdownResult Data))}
    {post : Except String Nat → World Data Thread → Prop}
    (drains : Drains runtime thread (some run) world)
    (valid : Valid runtime run.key request.query) (isId : request.requestId = run.requestId)
    (ends : ∀ completed later, Drains runtime thread none later → post (.ok completed) later) :
    Keeps runtime thread post (match complete results with
      | some results => do
          .perform (.writeCache run.key request.query results)
          .perform (.writeStatus run.key false)
          removeRequestIfUnchanged run.key request.requestId
          return 1
      | none => do
          .perform (.writeStatus run.key true)
          removeRequestIfUnchanged run.key request.requestId
          return 0) world := by
  rw [isId]
  split
  · rename_i _ results _
    refine keeps_step Drains.stable drains fun later choice drains _ => ?_
    have move : Move runtime thread later _ := .cache run request.query results choice.now
      drains.isActive drains.isRunning (queryFor_stored valid)
    have computed : Computed run
        (later.writeCache run.key request.query results choice.now).computed later.dirs.status := by
      rw [World.writeCache, drains.isRunning]
      exact Function.update_self ..
    refine ⟨move, keeps_step Drains.stable_and
      ⟨⟨drains.sound.move move, drains.isActive, drains.isRunning⟩, computed⟩
      fun later choice holds _ => ?_⟩
    obtain ⟨drains, computed⟩ := holds
    have move : Move runtime thread later _ := .status run false choice.now drains.isActive
      drains.isRunning
    refine ⟨move, Program.secure_bind _ _ (keeps_removeRequest
      ⟨drains.sound.move move, drains.isActive, drains.isRunning⟩ (.inr computed)
      fun later drains => keeps_done Drains.stable drains (ends 1))⟩
  · refine keeps_step Drains.stable drains fun later choice drains _ => ?_
    have move : Move runtime thread later _ := .status run true choice.now drains.isActive
      drains.isRunning
    have failed : (later.writeStatus run.key true choice.now).failed run.key = true := by
      rw [failed_writeStatus, if_pos rfl]
    refine ⟨move, Program.secure_bind _ _ (keeps_removeRequest
      ⟨drains.sound.move move, drains.isActive, drains.isRunning⟩ (.inl failed)
      fun later drains => keeps_done Drains.stable drains (ends 0))⟩

theorem keeps_drainOne {key : String} {post : Except String Nat → World Data Thread → Prop}
    (drains : Drains runtime thread none world)
    (ends : ∀ completed later, Drains runtime thread none later → post (.ok completed) later) :
    Keeps runtime thread post (drainOne key) world := by
  refine keeps_step Drains.stable drains fun start choice drains _ => ?_
  dsimp only [answer]
  cases found : start.request runtime key with
  | none =>
    refine ⟨.same, keeps_step Drains.stable drains fun later choice drains seen => ?_⟩
    have move : Move runtime thread later (later.removeRequest key).finish :=
      .drop key drains.isActive drains.isRunning (Option.map_eq_none_iff.mp seen)
    have idle : Drains runtime thread none (later.removeRequest key).finish := by
      refine ⟨drains.sound.move move, ?_, ?_⟩ <;>
        rw [finish_idle (show (later.removeRequest key).running = none from drains.isRunning)]
      · exact drains.isActive
      · exact drains.isRunning
    exact ⟨move, keeps_done Drains.stable idle (ends 0)⟩
  | some request =>
    have move : Move runtime thread start (start.startRun key request) :=
      .start key request drains.isActive drains.isRunning found
    have runs : Drains runtime thread (some ⟨key, request.requestId, start.clock⟩)
        (start.startRun key request) := ⟨drains.sound.move move, drains.isActive, rfl⟩
    refine ⟨move, keeps_step Drains.stable runs fun later choice runs _ => ⟨.same, ?_⟩⟩
    exact keeps_results runs (valid_of_request found) rfl ends

theorem keeps_drainAll {keys : List String} :
    ∀ {post : Except String Nat → World Data Thread → Prop} {world : World Data Thread},
      Drains runtime thread none world →
      (∀ completed later, Drains runtime thread none later → post (.ok completed) later) →
      Keeps runtime thread post (drainAll keys) world := by
  induction keys with
  | nil => exact fun drains ends => keeps_done Drains.stable drains (ends 0)
  | cons key keys inductionHypothesis =>
    intro post world drains ends
    refine Program.secure_bind _ _ (keeps_drainOne drains fun one later drains => ?_)
    refine Program.secure_bind _ _ (inductionHypothesis drains fun rest later drains => ?_)
    exact keeps_done Drains.stable drains (ends (one + rest))

theorem keeps_refreshQueued (sound : Sound runtime world) :
    Keeps runtime thread (fun _ _ => True) refreshQueuedUsageBreakdowns world := by
  refine keeps_step sound_stable sound fun later choice sound _ => ?_
  dsimp only [answer]
  split
  · rename_i free
    rw [Option.isNone_iff_eq_none] at free
    have move : Move runtime thread later { later with active := some thread } := .enter free
    have idle : later.running = none := by
      by_contra runs
      obtain ⟨run, isRunning⟩ := Option.ne_none_iff_exists'.mp runs
      have isActive := (sound.runs run isRunning).1
      rw [free] at isActive
      exact nomatch isActive
    have drains : Drains runtime thread none { later with active := some thread } :=
      ⟨sound.move move, rfl, idle⟩
    refine ⟨move, keeps_step Drains.stable drains fun later choice drains _ => ⟨.same, ?_⟩⟩
    refine Program.secure_bind _ _ (keeps_drainAll drains fun completed later drains => ?_)
    refine keeps_step Drains.stable drains fun later choice drains _ => ?_
    exact ⟨.leave drains.isActive drains.isRunning, fun _ _ => trivial⟩
  · exact ⟨.same, fun _ _ => trivial⟩

/-! ### Every interleaving -/

/-- The calls that there can be. -/
inductive Call where
  | refresh (input : UsageBreakdownRequest)
  | known
  | drain

variable (runtime) in
def callOf : Call → BreakdownCall Data Unit
  | .refresh input => requestUsageBreakdownRefresh runtime input
  | .known => do
      let _ ← requestKnownUsageBreakdownsRefresh runtime
      return ()
  | .drain => do
      let _ ← refreshQueuedUsageBreakdowns
      return ()

/-- The directories as they are found, before any call. -/
def World.opening (dirs : Directories (BreakdownResult Data)) : World Data Thread where
  dirs := dirs
  active := none
  running := none
  clock := (dirs.requests.map fun file => (file.2.map QueuedRequest.requestId).getD 0).sum + 1
  called := fun _ => 0
  owed := fun _ => []
  unlisted := fun _ => []
  wanted := fun _ => none
  finished := fun _ => none
  computed := fun _ => none

abbrev Calls (Data Thread : Type) := Crew (BreakdownAction Data) (World Data Thread) Thread String Unit

variable (runtime) in
def opening (dirs : Directories (BreakdownResult Data)) (calls : Thread → Call) :
    Calls Data Thread :=
  ⟨.opening dirs, fun thread => callOf runtime (calls thread)⟩

variable {dirs : Directories (BreakdownResult Data)} {calls : Thread → Call}
  {crew next : Calls Data Thread}

omit [DecidableEq Thread] in
theorem sound_opening : Sound runtime (World.opening dirs : World Data Thread) := by
  refine ⟨nofun, nofun, fun _ => Nat.succ_pos _, nofun, fun key request found => ?_, nofun, nofun,
    fun _ _ => .inr rfl⟩
  obtain ⟨queued, isQueued, isLoaded⟩ := Option.bind_eq_some_iff.mp found
  obtain ⟨_, -, rfl⟩ := Option.map_eq_some_iff.mp isLoaded
  obtain ⟨joined, -⟩ := Option.filter_eq_some_iff.mp isQueued
  obtain ⟨_, isThere, rfl⟩ := Option.bind_eq_some_iff.mp joined
  exact Nat.lt_succ_of_le (List.le_sum_of_mem
    (List.mem_map.mpr ⟨_, Members.mem_of_get isThere, rfl⟩))

theorem keeps_callOf {call : Call} (sound : Sound runtime world) :
    Keeps runtime thread (fun _ _ => True) (callOf runtime call) world := by
  have goesOn : ∀ {First : Type} (program : BreakdownCall Data First),
      Keeps runtime thread (fun _ _ => True) program world →
      Keeps runtime thread (fun _ _ => True) (program >>= fun _ => .done ()) world :=
    fun program keeps => Program.secure_bind _ _ (Program.secure_mono (fun outcome _ _ => by
      cases outcome
      · trivial
      · exact fun _ _ => trivial) _ _ keeps)
  cases call with
  | refresh input => exact keeps_requestUsageBreakdownRefresh sound
  | known => exact goesOn _ (keeps_requestKnown sound)
  | drain => exact goesOn _ (keeps_refreshQueued sound)

theorem reaches_sound
    (reaches : Crew.Reaches (undisturbed runtime) nobody (opening runtime dirs calls) crew) :
    Sound runtime crew.world ∧
      crew.Secure (Move runtime) nobody (undisturbed runtime) (fun _ _ _ => True) := by
  have opened : (opening runtime dirs calls).Secure (Move runtime) nobody (undisturbed runtime)
      (fun _ _ _ => True) := fun thread => keeps_callOf sound_opening
  obtain ⟨run, secure⟩ := Crew.Reaches.secure reaches opened
  refine ⟨?_, secure⟩
  clear secure reaches
  generalize crew.world = world at run
  induction run with
  | refl => exact sound_opening
  | tail _ last inductionHypothesis =>
    obtain none | ⟨thread, move⟩ := last
    · exact none.elim
    · exact inductionHypothesis.move move

/-- A drain ends its run only as the moves say: what was wanted stays so. -/
theorem Move.ends (move : Move runtime thread before after) {run : Running}
    (runs : before.running = some run) (ended : after.running = none) :
    after.wanted = before.wanted ∧ after.finished run.key = some run.since := by
  have finished : ∀ {world : World Data Thread}, world.running = some run →
      world.wanted = before.wanted →
      world.finish.wanted = before.wanted ∧ world.finish.finished run.key = some run.since := by
    intro world runs wanted
    rw [finish_running run runs]
    exact ⟨wanted, Function.update_self ..⟩
  have goesOn : ∀ {wanted : Prop}, before.running = none → wanted := fun idle =>
    nomatch idle.symm.trans runs
  cases move with
  | keep other isActive isRun settled => exact finished runs rfl
  | remove other isActive isRun settled same => exact finished (show _ = _ from runs) rfl
  | drop key isActive idle unreadable => exact goesOn idle
  | leave isActive idle => exact goesOn idle
  | start key request isActive idle found => exact goesOn idle
  | _ => exact goesOn ended

/-- In every run whose steps do not disturb each other: what readers see of a query that is neither
pending nor failed was computed by a run that began after the latest call for it, and a query asked
for since a drain began running it is still queued when the drain has done with it. -/
theorem refresh_notLost
    (reaches : Crew.Reaches (undisturbed runtime) nobody (opening runtime dirs calls) crew) :
    (∀ key time, crew.world.wanted key = some time → ∀ now ttlMs,
      (readEnvelope crew.world.dirs key now ttlMs).pending = false →
      (readEnvelope crew.world.dirs key now ttlMs).errorAt = none →
      ∃ start, crew.world.computed key = some start ∧ time < start) ∧
    ∀ next, Crew.Step (undisturbed runtime) nobody crew next →
      ∀ run, crew.world.running = some run → next.world.running = none →
      ∀ time, crew.world.wanted run.key = some time → run.since < time →
        (next.world.request runtime run.key).isSome := by
  obtain ⟨sound, secure⟩ := reaches_sound reaches
  refine ⟨fun key time isWanted now ttlMs isFree isFine => ?_,
    fun next step run runs ended time isWanted later => ?_⟩
  · have absent : crew.world.dirs.requests.hasKey key = false := isFree
    obtain ⟨request, found, -⟩ | ⟨start, isStart, later⟩ := sound.covered key time isWanted
    · rw [hasKey_of_request found] at absent
      exact nomatch absent
    · refine ⟨start, ?_, later⟩
      have idle : ∀ run, crew.world.running = some run → run.key ≠ key := by
        rintro run runs rfl
        rw [sound.held run runs] at absent
        exact nomatch absent
      obtain failed | computed := sound.settled key idle
      · unfold World.failed at failed
        rw [show (loadStatus crew.world.dirs.status key).bind RequestStatus.lastErrorAt = none
          from isFine] at failed
        exact nomatch failed
      · rw [computed, isStart]
  · obtain none | ⟨thread, move⟩ := (secure.step step).1
    · exact none.elim
    obtain ⟨wanted, finished⟩ := move.ends runs ended
    have covered := (sound.move move).covered run.key time (wanted ▸ isWanted)
    obtain ⟨request, found, -⟩ | ⟨start, isStart, after⟩ := covered
    · rw [found]
      rfl
    · rw [finished] at isStart
      obtain rfl := Option.some.inj isStart
      omega

end Calls

/-! ### A request while its query runs -/

def plainRuntime : BreakdownRuntime where
  nfc := id
  toLowerCase := id
  requestKey := fun query => query.identity.getD "all"
  nfc_trim := fun _ => rfl
  nfc_tool := fun _ _ => rfl
  toLowerCase_tool := fun _ _ => rfl

def emptyDirectories : Directories (BreakdownResult Unit) := ⟨[], [], []⟩

/-- The second call drains, the others ask for the query of everything. -/
def askedTwice : Nat → Call
  | 1 => .drain
  | _ => .refresh ⟨none, none, none⟩

/-- A run that finds nothing. -/
def nothingFound : Choice Unit := ⟨0, some []⟩

/-- An answer, if the step is one of a request or a drain that disturbs no other. -/
def undisturbedAnswer (thread : Nat) (Answer : Type) (action : BreakdownAction Unit Answer)
    (choice : Choice Unit) (world : World Unit Nat) : Option (Answer × World Unit Nat) :=
  let isUndisturbed : Bool := match action with
    | .checkRequest key => (world.request plainRuntime key).all fun found =>
        world.running.all fun run => run.key != key || run.requestId != found.requestId ||
          decide (world.called thread < run.since)
    | .listRequests | .loadRequest _ => false
    | .unlinkRequest key seen =>
        (world.request plainRuntime key).map LoadedRequest.requestId == seen
    | _ => true
  if isUndisturbed then some (answer plainRuntime thread action choice world) else none

theorem undisturbed_of_answer {thread : Nat} {Answer : Type} {action : BreakdownAction Unit Answer}
    {choice : Choice Unit} {before after : World Unit Nat} {result : Answer}
    (answers : undisturbedAnswer thread Answer action choice before = some (result, after)) :
    undisturbed plainRuntime thread Answer action before result after := by
  unfold undisturbedAnswer at answers
  dsimp only at answers
  split_ifs at answers with isUndisturbed
  refine ⟨⟨choice, answers⟩, ?_⟩
  cases action with
  | checkRequest key =>
    intro found isFound run runs isKey isId
    dsimp only at isUndisturbed
    rw [isFound, runs] at isUndisturbed
    simpa [isKey, isId] using isUndisturbed
  | unlinkRequest key seen => exact beq_iff_eq.mp isUndisturbed
  | listRequests => exact nomatch isUndisturbed
  | loadRequest key => exact nomatch isUndisturbed
  | _ => trivial

/-- One request that is drained: its query is computed by a run that began later. -/
theorem refresh_notLost_drained :
    ∃ crew : Calls Unit Nat, Crew.Reaches (undisturbed plainRuntime) nobody
        (opening plainRuntime emptyDirectories askedTwice) crew ∧
      crew.world.wanted "all" = some 1 ∧
      ∃ start, crew.world.computed "all" = some start ∧ 1 < start := by
  have follows : ((opening plainRuntime emptyDirectories askedTwice).follow undisturbedAnswer
      (List.replicate 4 (0, nothingFound) ++ List.replicate 9 (1, nothingFound))).map
      (fun crew => (crew.world.wanted "all", (readEnvelope crew.world.dirs "all" 0 0).pending,
        (readEnvelope crew.world.dirs "all" 0 0).errorAt)) = some (some 1, false, none) := by
    decide +kernel
  obtain ⟨crew, followed, seen⟩ := Option.map_eq_some_iff.mp follows
  simp only [Prod.mk.injEq] at seen
  obtain ⟨wanted, isFree, isFine⟩ := seen
  have reaches : Crew.Reaches (undisturbed plainRuntime) nobody
      (opening plainRuntime emptyDirectories askedTwice) crew :=
    Crew.Reaches.mono (fun _ _ _ _ _ _ ⟨_, answers⟩ => undisturbed_of_answer answers)
      (Crew.reaches_of_follow followed)
  exact ⟨crew, reaches, wanted, (refresh_notLost reaches).1 "all" 1 wanted 0 0 isFree isFine⟩

/-- A request that is made while its query runs finds the request that the drain is running, and
is lost with it: what readers then see was computed by the run that began before. -/
theorem refresh_lost :
    ∃ crew : Calls Unit Nat, Crew.Reaches (Chosen (answers plainRuntime)) nobody
        (opening plainRuntime emptyDirectories askedTwice) crew ∧
      (readEnvelope crew.world.dirs "all" 0 0).pending = false ∧
      (readEnvelope crew.world.dirs "all" 0 0).errorAt = none ∧
      crew.world.computed "all" = some 3 ∧ crew.world.wanted "all" = some 4 := by
  have follows : ((opening plainRuntime emptyDirectories askedTwice).follow (answers plainRuntime)
      (List.replicate 4 (0, nothingFound) ++ List.replicate 3 (1, nothingFound) ++
        List.replicate 3 (2, nothingFound) ++ List.replicate 6 (1, nothingFound))).map
      (fun crew => ((readEnvelope crew.world.dirs "all" 0 0).pending,
        (readEnvelope crew.world.dirs "all" 0 0).errorAt, crew.world.computed "all",
        crew.world.wanted "all")) = some (false, none, some 3, some 4) := by
    decide +kernel
  obtain ⟨crew, followed, seen⟩ := Option.map_eq_some_iff.mp follows
  simp only [Prod.mk.injEq] at seen
  exact ⟨crew, Crew.reaches_of_follow followed, seen⟩

end AiSwitcher.Usage.Breakdown
