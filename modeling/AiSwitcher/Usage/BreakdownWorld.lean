/-
This file has the worlds that requests and drains of usage breakdowns act on, the moves they can
make, and what every move preserves: a call whose request has returned is covered by a request that
is still queued, or by a run of its query that has ended and began after the call was made.
-/

import AiSwitcher.Usage.Breakdown

namespace AiSwitcher.Usage.Breakdown

open JavaScript Interrupted

/-! ### Worlds -/

/-- The request whose query the drain runs, and since when. -/
structure Running where
  key : String
  requestId : Nat
  since : Nat
  deriving DecidableEq

/-- The directories and the active drain; and for the record, when calls were made and which
queries they ask for (those that a call for all known queries finds requested but not cached are
`unlisted`), when the latest call for a query was made that has returned, and when the last run of
a query began that has ended, and the one whose results are cached. -/
structure World (Data Thread : Type) where
  dirs : Directories (BreakdownResult Data)
  active : Option Thread
  running : Option Running
  clock : Nat
  called : Thread → Nat
  owed : Thread → List String
  unlisted : Thread → List String
  wanted : String → Option Nat
  finished : String → Option Nat
  computed : String → Option Nat

/-- The clock of the files, and what a run finds. -/
structure Choice (Data : Type) where
  now : ℤ
  results : Option (List (BreakdownResult Data))

variable {Data Thread : Type} (runtime : BreakdownRuntime)

namespace World

variable (world : World Data Thread)

def request (key : String) : Option LoadedRequest := loadRequest runtime world.dirs.requests key

def cachedQuery (key : String) : Option Query := loadCacheQuery runtime world.dirs.cache key

/-- The queries that are cached or requested. -/
def known : List String :=
  (world.dirs.cache.map Prod.fst).filter (fun key => (world.cachedQuery runtime key).isSome) ++
    (world.dirs.requests.map Prod.fst).filter fun key => (world.request runtime key).isSome

def failed (key : String) : Bool :=
  ((loadStatus world.dirs.status key).bind RequestStatus.lastErrorAt).isSome

def writeRequest (key : String) (query : Query) (now : ℤ) : World Data Thread :=
  { world with
    dirs := { world.dirs with
      requests := world.dirs.requests.set key (some ⟨key, world.clock, query.stored, now⟩) }
    clock := world.clock + 1 }

/-- The later of two times, one of which may be missing. -/
def latest (first : Option Nat) (second : Nat) : Nat := max (first.getD 0) second

def removeRequest (key : String) : World Data Thread :=
  { world with dirs := { world.dirs with requests := world.dirs.requests.delete key } }

/-- The drain has done with the query that it ran. -/
def finish : World Data Thread :=
  match world.running with
  | none => world
  | some run =>
      { world with
        running := none
        finished := Function.update world.finished run.key (some run.since) }

def writeCache (key : String) (query : Query) (results : List (BreakdownResult Data)) (now : ℤ) :
    World Data Thread :=
  { world with
    dirs := { world.dirs with
      cache := world.dirs.cache.set key (some ⟨key, query.stored, results, now, now⟩) }
    computed := Function.update world.computed key (world.running.map Running.since) }

def writeStatus (key : String) (failed : Bool) (now : ℤ) : World Data Thread :=
  { world with
    dirs := { world.dirs with
      status := world.dirs.status.set key (some ⟨key, if failed then some now else none⟩) } }

def startRun (key : String) (request : LoadedRequest) : World Data Thread :=
  { world with
    running := some ⟨key, request.requestId, world.clock⟩
    clock := world.clock + 1 }

variable [DecidableEq Thread]

/-- A call is made for some queries. -/
def call (thread : Thread) (owed unlisted : List String) : World Data Thread :=
  { world with
    clock := world.clock + 1
    called := Function.update world.called thread world.clock
    owed := Function.update world.owed thread owed
    unlisted := Function.update world.unlisted thread unlisted }

def returned (thread : Thread) : World Data Thread :=
  { world with
    wanted := fun key =>
      if key ∈ world.owed thread then some (latest (world.wanted key) (world.called thread))
      else world.wanted key }

end World

variable [DecidableEq Thread]

def answer (thread : Thread) {Answer : Type} (action : BreakdownAction Data Answer)
    (choice : Choice Data) (world : World Data Thread) : Answer × World Data Thread :=
  match action with
  | .call key => ((), world.call thread [key] [])
  | .callKnown =>
      (world.dirs.cache.map Prod.fst, world.call thread (world.known runtime)
        ((world.known runtime).filter fun key => !(world.cachedQuery runtime key).isSome))
  | .loadCacheQuery key => (world.cachedQuery runtime key, world)
  | .listRequests => (world.dirs.requests.map Prod.fst, world)
  | .loadRequest key => (world.request runtime key, world)
  | .checkRequest key => (world.request runtime key, world)
  | .writeRequest key query => ((), world.writeRequest key query choice.now)
  | .returned => ((), world.returned thread)
  | .enterDrain =>
      if world.active.isNone then (true, { world with active := some thread }) else (false, world)
  | .leaveDrain => ((), { world with active := none })
  | .listQueued => (world.dirs.requests.map Prod.fst, world)
  | .startRun key =>
      match world.request runtime key with
      | some request => (some request, world.startRun key request)
      | none => (none, world)
  | .run _ => (choice.results, world)
  | .writeCache key query results => ((), world.writeCache key query results choice.now)
  | .writeStatus key failed => ((), world.writeStatus key failed choice.now)
  | .compareRequest key requestId =>
      if (world.request runtime key).map LoadedRequest.requestId = some requestId then (true, world)
      else (false, world.finish)
  | .unlinkRequest key _ => ((), (world.removeRequest key).finish)

/-! ### What covers a call -/

variable {runtime} {world before after : World Data Thread} {thread : Thread} {key other : String}
  {time : Nat}

/-- A request for the query is queued, and the drain is not running it since before the time. -/
def Queued (runtime : BreakdownRuntime) (key : String) (time : Nat) (world : World Data Thread) :
    Prop :=
  ∃ request, world.request runtime key = some request ∧ ∀ run, world.running = some run →
    run.key = key → run.requestId = request.requestId → time < run.since

/-- A request is queued for a call made at the time, or a run that began later has ended. -/
def Covered (runtime : BreakdownRuntime) (key : String) (time : Nat) (world : World Data Thread) :
    Prop :=
  Queued runtime key time world ∨ ∃ start, world.finished key = some start ∧ time < start

omit [DecidableEq Thread] in
@[simp] theorem request_writeRequest {query : Query} {now : ℤ} :
    (world.writeRequest key query now).request runtime other =
      if other = key then (queryFor runtime key query.stored).map (⟨world.clock, ·⟩)
      else world.request runtime other := by
  unfold World.writeRequest World.request loadRequest
  simp only [Members.get_set]
  split
  · rename_i same
    simp [same, Option.filter]
  · rfl

omit [DecidableEq Thread] in
@[simp] theorem request_removeRequest :
    (world.removeRequest key).request runtime other =
      if other = key then none else world.request runtime other := by
  unfold World.removeRequest World.request loadRequest
  simp only [Members.get_delete]
  split <;> rfl

omit [DecidableEq Thread] in
/-- A request that can be loaded is a file of the directory. -/
theorem hasKey_of_request {request : LoadedRequest}
    (found : world.request runtime key = some request) :
    world.dirs.requests.hasKey key = true := by
  obtain ⟨file, isFile, -⟩ := Option.bind_eq_some_iff.mp found
  obtain ⟨joined, -⟩ := Option.filter_eq_some_iff.mp isFile
  obtain ⟨_, isThere, -⟩ := Option.bind_eq_some_iff.mp joined
  rw [← Members.isSome_get, isThere]
  rfl

omit [DecidableEq Thread] in
@[simp] theorem finish_dirs : world.finish.dirs = world.dirs := by
  unfold World.finish
  split <;> rfl

omit [DecidableEq Thread] in
@[simp] theorem request_finish : world.finish.request runtime key = world.request runtime key := by
  unfold World.request
  rw [finish_dirs]

omit [DecidableEq Thread] in
@[simp] theorem failed_writeStatus {failed : Bool} {now : ℤ} :
    (world.writeStatus key failed now).failed other =
      if other = key then failed else world.failed other := by
  unfold World.writeStatus World.failed loadStatus
  simp only [Members.get_set]
  split
  · rename_i same
    cases failed <;> simp [same, Option.filter]
  · rfl

variable (runtime thread) in
/-- What a step of a thread may do to the world. -/
inductive Move (before : World Data Thread) : World Data Thread → Prop
  | same : Move before before
  | call (owed unlisted : List String) : Move before (before.call thread owed unlisted)
  | write (key : String) (query : Query) (now : ℤ)
      (valid : queryFor runtime key query.stored = some query) :
      Move before (before.writeRequest key query now)
  | returned (covered : ∀ key ∈ before.owed thread,
      Covered runtime key (before.called thread) before) :
      Move before (before.returned thread)
  | enter (free : before.active = none) : Move before { before with active := some thread }
  | leave (isActive : before.active = some thread) (idle : before.running = none) :
      Move before { before with active := none }
  | start (key : String) (request : LoadedRequest) (isActive : before.active = some thread)
      (idle : before.running = none) (found : before.request runtime key = some request) :
      Move before (before.startRun key request)
  | cache (run : Running) (query : Query) (results : List (BreakdownResult Data)) (now : ℤ)
      (isActive : before.active = some thread) (runs : before.running = some run)
      (valid : queryFor runtime run.key query.stored = some query) :
      Move before (before.writeCache run.key query results now)
  | status (run : Running) (failed : Bool) (now : ℤ) (isActive : before.active = some thread)
      (runs : before.running = some run) : Move before (before.writeStatus run.key failed now)
  | keep (run : Running) (isActive : before.active = some thread)
      (runs : before.running = some run)
      (settled : before.failed run.key = true ∨ before.computed run.key = some run.since) :
      Move before before.finish
  | remove (run : Running) (isActive : before.active = some thread)
      (runs : before.running = some run)
      (settled : before.failed run.key = true ∨ before.computed run.key = some run.since)
      (same : (before.request runtime run.key).map LoadedRequest.requestId = some run.requestId) :
      Move before (before.removeRequest run.key).finish
  | drop (key : String) (isActive : before.active = some thread) (idle : before.running = none)
      (unreadable : before.request runtime key = none) :
      Move before (before.removeRequest key).finish

variable (runtime) in
/-- What holds in every world: what happened lies in the past, returned calls are covered, and the
results that are cached are of the last run that ended, unless that failed. -/
structure Sound (world : World Data Thread) : Prop where
  runs : ∀ run, world.running = some run → world.active.isSome ∧ run.since < world.clock ∧
    run.requestId < world.clock ∧ ∀ start, world.finished run.key = some start → start < run.since
  held : ∀ run, world.running = some run → world.dirs.requests.hasKey run.key = true
  called : ∀ thread, world.called thread < world.clock
  finished : ∀ key start, world.finished key = some start → start < world.clock
  ids : ∀ key request, world.request runtime key = some request → request.requestId < world.clock
  asked : ∀ key time, world.wanted key = some time → time < world.clock
  covered : ∀ key time, world.wanted key = some time → Covered runtime key time world
  settled : ∀ key, (∀ run, world.running = some run → run.key ≠ key) →
    world.failed key = true ∨ world.computed key = world.finished key

omit [DecidableEq Thread] in
theorem finish_running (run : Running) (runs : world.running = some run) :
    world.finish = { world with
      running := none
      finished := Function.update world.finished run.key (some run.since) } := by
  unfold World.finish
  rw [runs]

omit [DecidableEq Thread] in
theorem finish_idle (idle : world.running = none) : world.finish = world := by
  unfold World.finish
  rw [idle]

omit [DecidableEq Thread] in
/-- A run that ends covers what it began after. -/
theorem finish_later (sound : Sound runtime world) {run : Running}
    (runs : world.running = some run)
    (earlier : ∃ start, world.finished key = some start ∧ time < start) :
    ∃ start, Function.update world.finished run.key (some run.since) key = some start ∧
      time < start := by
  obtain ⟨start, isStart, later⟩ := earlier
  by_cases same : key = run.key
  · subst same
    refine ⟨run.since, Function.update_self .., ?_⟩
    exact later.trans ((sound.runs run runs).2.2.2 start isStart)
  · exact ⟨start, by rwa [Function.update_of_ne same], later⟩

/-- What covers a call goes on to cover it. -/
theorem Covered.move (sound : Sound runtime before) (move : Move runtime thread before after)
    (past : time < before.clock) (covered : Covered runtime key time before) :
    Covered runtime key time after := by
  cases move with
  | same => exact covered
  | call owed unlisted => exact covered
  | returned _ => exact covered
  | enter free => exact covered
  | leave isActive idle => exact covered
  | cache run query results now isActive runs valid => exact covered
  | status run failed now isActive runs => exact covered
  | write written query now valid =>
    obtain ⟨request, found, unrun⟩ | ended := covered
    · left
      by_cases same : key = written
      · refine ⟨⟨before.clock, query⟩, by simp [same, valid], fun run runs _ isSame => ?_⟩
        exact absurd isSame ((sound.runs run runs).2.2.1.ne)
      · exact ⟨request, by simpa [same] using found, unrun⟩
    · exact .inr ended
  | start started request isActive idle found =>
    obtain ⟨queued, isQueued, unrun⟩ | ended := covered
    · refine .inl ⟨queued, isQueued, fun run runs _ _ => ?_⟩
      obtain rfl := Option.some.inj runs
      exact past
    · exact .inr ended
  | keep run isActive runs settled =>
    rw [finish_running run runs]
    obtain ⟨queued, isQueued, unrun⟩ | ended := covered
    · exact .inl ⟨queued, isQueued, nofun⟩
    · exact .inr (finish_later sound runs ended)
  | remove run isActive runs settled same =>
    rw [finish_running run (show (before.removeRequest run.key).running = some run from runs)]
    obtain ⟨queued, isQueued, unrun⟩ | ended := covered
    · by_cases isRun : run.key = key
      · subst isRun
        rw [isQueued] at same
        exact .inr ⟨run.since, Function.update_self ..,
          unrun run runs rfl (Option.some.inj same).symm⟩
      · refine .inl ⟨queued, ?_, nofun⟩
        have kept : (before.removeRequest run.key).request runtime key = some queued := by
          rw [request_removeRequest, if_neg (Ne.symm isRun), isQueued]
        exact kept
    · exact .inr (finish_later sound runs ended)
  | drop dropped isActive idle unreadable =>
    rw [finish_idle (show (before.removeRequest dropped).running = none from idle)]
    obtain ⟨queued, isQueued, unrun⟩ | ended := covered
    · refine .inl ⟨queued, ?_, unrun⟩
      rw [request_removeRequest, if_neg, isQueued]
      rintro rfl
      exact nomatch unreadable.symm.trans isQueued
    · exact .inr ended

omit [DecidableEq Thread] in
theorem finished_update {run : Running} (sound : Sound runtime world)
    (runs : world.running = some run) (start : Nat)
    (isFinished : Function.update world.finished run.key (some run.since) key = some start) :
    start < world.clock := by
  by_cases same : key = run.key
  · subst same
    rw [Function.update_self] at isFinished
    obtain rfl := Option.some.inj isFinished
    exact (sound.runs run runs).2.1
  · rw [Function.update_of_ne same] at isFinished
    exact sound.finished key start isFinished

omit [DecidableEq Thread] in
/-- The query that was run is settled when its run has ended, and the others are as before. -/
theorem settled_update {run : Running} (sound : Sound runtime world)
    (runs : world.running = some run)
    (settled : world.failed run.key = true ∨ world.computed run.key = some run.since) :
    world.failed key = true ∨ world.computed key =
      Function.update world.finished run.key (some run.since) key := by
  by_cases same : key = run.key
  · subst same
    rwa [Function.update_self]
  · rw [Function.update_of_ne same]
    refine sound.settled key fun other runsOther => ?_
    obtain rfl := Option.some.inj (runs.symm.trans runsOther)
    exact Ne.symm same

theorem Sound.move (sound : Sound runtime before) (move : Move runtime thread before after) :
    Sound runtime after := by
  have covered : ∀ key time, before.wanted key = some time → Covered runtime key time after :=
    fun key time isWanted =>
      (sound.covered key time isWanted).move sound move (sound.asked key time isWanted)
  cases move with
  | same => exact sound
  | call owed unlisted =>
    refine ⟨fun run runs => ?_, sound.held, fun other => ?_, fun key start isStart => ?_,
      fun key request found => ?_, fun key time isWanted => ?_, covered, sound.settled⟩
    · obtain ⟨isActive, since, id, earlier⟩ := sound.runs run runs
      exact ⟨isActive, Nat.lt_succ_of_lt since, Nat.lt_succ_of_lt id, earlier⟩
    · show Function.update before.called thread before.clock other < before.clock + 1
      by_cases same : other = thread
      · rw [same, Function.update_self]
        exact Nat.lt_succ_self _
      · rw [Function.update_of_ne same]
        exact Nat.lt_succ_of_lt (sound.called other)
    · exact Nat.lt_succ_of_lt (sound.finished key start isStart)
    · exact Nat.lt_succ_of_lt (sound.ids key request found)
    · exact Nat.lt_succ_of_lt (sound.asked key time isWanted)
  | write written query now valid =>
    refine ⟨fun run runs => ?_, fun run runs => ?_,
      fun other => Nat.lt_succ_of_lt (sound.called other),
      fun key start isStart => Nat.lt_succ_of_lt (sound.finished key start isStart),
      fun key request found => ?_,
      fun key time isWanted => Nat.lt_succ_of_lt (sound.asked key time isWanted), covered,
      sound.settled⟩
    · obtain ⟨isActive, since, id, earlier⟩ := sound.runs run runs
      exact ⟨isActive, Nat.lt_succ_of_lt since, Nat.lt_succ_of_lt id, earlier⟩
    · have still := sound.held run runs
      rw [← Members.isSome_get] at still ⊢
      simp only [World.writeRequest, Members.get_set]
      split
      · rfl
      · exact still
    · rw [request_writeRequest] at found
      split at found
      · rw [valid] at found
        obtain rfl := Option.some.inj found
        exact Nat.lt_succ_self _
      · exact Nat.lt_succ_of_lt (sound.ids key request found)
  | returned owes =>
    refine ⟨sound.runs, sound.held, sound.called, sound.finished, sound.ids,
      fun key time isWanted => ?_, fun key time isWanted => ?_, sound.settled⟩
    · dsimp only [World.returned] at isWanted
      split at isWanted
      · obtain rfl := Option.some.inj isWanted
        refine max_lt ?_ (sound.called thread)
        cases was : before.wanted key with
        | none => exact lt_of_le_of_lt (Nat.zero_le _) (sound.called thread)
        | some earlier => exact sound.asked key earlier was
      · exact sound.asked key time isWanted
    · dsimp only [World.returned] at isWanted
      split at isWanted
      · rename_i member
        obtain rfl := Option.some.inj isWanted
        have own : Covered runtime key (before.called thread) before := owes key member
        cases was : before.wanted key with
        | none =>
          show Covered runtime key (max 0 (before.called thread)) before
          rwa [Nat.zero_max]
        | some earlier =>
          show Covered runtime key (max earlier (before.called thread)) before
          obtain bigger | bigger := max_choice earlier (before.called thread)
          · rw [bigger]
            exact sound.covered key earlier was
          · rwa [bigger]
      · exact sound.covered key time isWanted
  | enter free =>
    exact ⟨fun run runs => ⟨rfl, (sound.runs run runs).2⟩, sound.held, sound.called,
      sound.finished, sound.ids, sound.asked, covered, sound.settled⟩
  | leave isActive idle =>
    refine ⟨fun run runs => ?_, sound.held, sound.called, sound.finished, sound.ids, sound.asked,
      covered, sound.settled⟩
    exact nomatch idle.symm.trans runs
  | start key request isActive idle found =>
    refine ⟨fun run runs => ?_, fun run runs => ?_,
      fun other => Nat.lt_succ_of_lt (sound.called other),
      fun key start isStart => Nat.lt_succ_of_lt (sound.finished key start isStart),
      fun key request found => Nat.lt_succ_of_lt (sound.ids key request found),
      fun key time isWanted => Nat.lt_succ_of_lt (sound.asked key time isWanted), covered,
      fun other others => sound.settled other fun run runs => ?_⟩
    · obtain rfl := Option.some.inj runs
      exact ⟨by simp [World.startRun, isActive], Nat.lt_succ_self _,
        Nat.lt_succ_of_lt (sound.ids key request found), sound.finished key⟩
    · obtain rfl := Option.some.inj runs
      exact hasKey_of_request found
    · exact nomatch idle.symm.trans runs
  | cache run query results now isActive runs valid =>
    refine ⟨sound.runs, sound.held, sound.called, sound.finished, sound.ids, sound.asked, covered,
      fun other others => ?_⟩
    have differs : other ≠ run.key := (others run runs).symm
    have settled := sound.settled other others
    dsimp only [World.writeCache]
    rwa [Function.update_of_ne differs]
  | status run failed now isActive runs =>
    refine ⟨sound.runs, sound.held, sound.called, sound.finished, sound.ids, sound.asked, covered,
      fun other others => ?_⟩
    rw [failed_writeStatus, if_neg (others run runs).symm]
    exact sound.settled other others
  | keep run isActive runs settled =>
    rw [finish_running run runs] at covered ⊢
    exact ⟨nofun, nofun, sound.called, fun key start => finished_update sound runs start, sound.ids,
      sound.asked, covered, fun key _ => settled_update sound runs settled⟩
  | remove run isActive runs settled same =>
    have still : (before.removeRequest run.key).running = some run := runs
    rw [finish_running run still] at covered ⊢
    refine ⟨nofun, nofun, sound.called, fun key start => finished_update sound runs start,
      fun key request found => ?_, sound.asked, covered, fun key _ =>
        settled_update sound runs settled⟩
    have isThere : (before.removeRequest run.key).request runtime key = some request := found
    rw [request_removeRequest] at isThere
    split at isThere
    · exact nomatch isThere
    · exact sound.ids key request isThere
  | drop dropped isActive idle unreadable =>
    have still : (before.removeRequest dropped).running = none := idle
    rw [finish_idle still] at covered ⊢
    refine ⟨sound.runs, fun run runs => (nomatch idle.symm.trans runs), sound.called,
      sound.finished, fun key request found => ?_, sound.asked, covered, sound.settled⟩
    rw [request_removeRequest] at found
    split at found
    · exact nomatch found
    · exact sound.ids key request found

end AiSwitcher.Usage.Breakdown
