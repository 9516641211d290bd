/-
This file has the worlds that the requests of the local gateway act on, the lives that a request
can have, and what the breaker knows of them. Every request records what it does to the breaker
and what it hands to an upstream. Its guarantee is that its own records go on as one of these
lives, and that the breaker turns as the last record says.
-/

import AiSwitcher.Gateway.Local

namespace AiSwitcher.Gateway.Local

open JavaScript Interrupted
open Proxy (Thrown ProviderCredential Body Response ApiStyle)

/-! ### Worlds -/

/-- What a request did to the breaker, or handed to an upstream. -/
inductive Event where
  | routed (body : Body) (now : ℚ) (destination : Destination)
  | toRemote (body : Body)
  | ended (isProbe : Bool) (how : Ended)
  | toDirect (body : Body)
  deriving DecidableEq

/-- The breaker, and what all requests did, the latest first. -/
structure World (Thread : Type) where
  breaker : Breaker
  trace : List (Thread × Event)

/-- What the world answers to an action. -/
structure Choice where
  hosts : List String
  token : Option String
  body : Option Body
  aborted : Bool
  now : ℚ
  later : ℚ
  remote : Except FetchError Response
  peeked : Option (Utf8.Bytes × Bool)
  members : Option (List String)
  credential : Except Thrown ProviderCredential
  upstream : Option Response

variable {Thread : Type}

def World.record (thread : Thread) (event : Event) (breaker : Breaker) (world : World Thread) :
    World Thread :=
  ⟨breaker, (thread, event) :: world.trace⟩

section Answers

variable (deps : LocalGatewayDeps) (thread : Thread)

def answer {Answer : Type} (action : LocalAction Answer) (choice : Choice) (world : World Thread) :
    Answer × World Thread :=
  match action with
  | .allowedHosts => (choice.hosts, world)
  | .breaker => (world.breaker, world)
  | .clientToken _ => (choice.token, world)
  | .readBody => (choice.body, world)
  | .aborted => (choice.aborted, world)
  | .now => (choice.now, world)
  | .choose body =>
      let (destination, breaker) := world.breaker.choose deps body choice.now
      (destination, world.record thread (.routed body choice.now destination) breaker)
  | .fetchRemote _ _ body => (choice.remote, world.record thread (.toRemote body) world.breaker)
  | .remoteEnded isProbe how =>
      ((), world.record thread (.ended isProbe how)
        (world.breaker.ended deps isProbe how choice.now choice.later))
  | .peek _ _ => (choice.peeked, world)
  | .discard _ => ((), world)
  | .members _ => (choice.members, world)
  | .getCredential _ _ => (choice.credential, world)
  | .refreshAfter401 _ _ _ => (choice.credential, world)
  | .fetchDirect _ body => (choice.upstream, world.record thread (.toDirect body) world.breaker)

end Answers

/-- Every answer there can be. -/
def answers (deps : LocalGatewayDeps) (thread : Thread) (Answer : Type)
    (action : LocalAction Answer) (choice : Choice) (world : World Thread) :
    Option (Answer × World Thread) :=
  some (answer deps thread action choice world)

def nobody : World Thread → World Thread → Prop := fun _ _ => False

abbrev Requests (Thread : Type) := Crew LocalAction (World Thread) Thread LocalError LocalReply

section Gateways

variable {Native : Type} (runtime : LocalRuntime Native) (deps : LocalGatewayDeps)

/-- The gateway as it is created, and the requests it will get. -/
def opening (requests : Thread → Request) (now : ℚ) : Requests Thread :=
  ⟨⟨.new deps now, []⟩, fun thread => handle runtime deps (requests thread)⟩

variable [DecidableEq Thread]

abbrev Step : Requests Thread → Requests Thread → Prop := Crew.Step (Chosen (answers deps)) nobody

abbrev Reaches : Requests Thread → Requests Thread → Prop :=
  Crew.Reaches (Chosen (answers deps)) nobody

end Gateways

/-! ### The life of a request -/

/-- The body that was handed to an upstream. -/
def Event.handed? : Event → Option Body
  | .toRemote body | .toDirect body => some body
  | .routed .. | .ended .. => none

def Event.startsProbe : Event → Bool
  | .routed _ _ destination => destination = .probe
  | _ => false

def Event.endsRemote : Event → Bool
  | .ended .. => true
  | _ => false

/-- The bodies a request has handed to the upstreams. -/
def handed (events : List Event) : List Body := events.filterMap Event.handed?

@[simp] theorem handed_nil : handed [] = [] := rfl

@[simp] theorem handed_routed {body : Body} {now : ℚ} {destination : Destination}
    {events : List Event} : handed (.routed body now destination :: events) = handed events := rfl

@[simp] theorem handed_toRemote {body : Body} {events : List Event} :
    handed (.toRemote body :: events) = body :: handed events := rfl

@[simp] theorem handed_ended {isProbe : Bool} {how : Ended} {events : List Event} :
    handed (.ended isProbe how :: events) = handed events := rfl

@[simp] theorem handed_toDirect {body : Body} {events : List Event} :
    handed (.toDirect body :: events) = body :: handed events := rfl

/-- The request was made the probe, and its remote attempt has not ended. -/
def probing (events : List Event) : Bool :=
  events.any Event.startsProbe && !events.any Event.endsRemote

/-- The events of a request that was sent on to the provider: it was routed there, or the remote
failed and its body can be sent again. A stream is handed on only once. -/
inductive Diverted (body : Body) : List Event → Prop
  | routed (now : ℚ) : Diverted body [.routed body now .direct]
  | failed {destination : Destination} (now : ℚ) (reason : String)
      (replayable : body.isStream = false) (remote : destination ≠ .direct) :
      Diverted body [.ended (decide (destination = .probe)) (.failed reason), .toRemote body,
        .routed body now destination]
  | sent {events : List Event} (once : body.isStream = true → handed events = [])
      (diverted : Diverted body events) : Diverted body (.toDirect body :: events)

/-- The events a request can have by the time of one of its steps. -/
inductive Life : List Event → Prop
  | new : Life []
  | routed (body : Body) (now : ℚ) (destination : Destination) :
      Life [.routed body now destination]
  | sent {destination : Destination} (body : Body) (now : ℚ) (remote : destination ≠ .direct) :
      Life [.toRemote body, .routed body now destination]
  | ended {destination : Destination} (body : Body) (now : ℚ) (how : Ended)
      (remote : destination ≠ .direct) :
      Life [.ended (decide (destination = .probe)) how, .toRemote body,
        .routed body now destination]
  | diverted {body : Body} {events : List Event} (diverted : Diverted body events) : Life events

/-- A body is handed to a provider after it was handed to the remote only if it is no stream and
the remote attempt ended as a `RemoteFailure`. -/
def ReplaysFailures (events : List Event) : Prop :=
  ∀ later body earlier, events = later ++ .toDirect body :: earlier →
    ∀ sent, .toRemote sent ∈ earlier →
      body.isStream = false ∧ ∃ isProbe reason, .ended isProbe (.failed reason) ∈ earlier

/-- A request hands on nothing but its body, and a stream once at most. -/
def HandsOnce (events : List Event) : Prop :=
  ∀ body now destination, .routed body now destination ∈ events →
    (∀ sent ∈ handed events, sent = body) ∧
      (body.isStream = true → (handed events).length ≤ 1)

theorem Diverted.not_probing {body : Body} {events : List Event}
    (diverted : Diverted body events) : probing events = false := by
  induction diverted with
  | routed now => rfl
  | failed now reason replayable remote => simp [probing, Event.endsRemote, Event.startsProbe]
  | sent once diverted inductionHypothesis => simpa [probing, Event.endsRemote,
      Event.startsProbe] using inductionHypothesis

theorem Diverted.of_append {body : Body} {events : List Event} (diverted : Diverted body events) :
    ∀ later sent earlier, events = later ++ .toDirect sent :: earlier →
      sent = body ∧ Diverted body earlier := by
  induction diverted with
  | routed now =>
    intro later sent earlier isEvents
    have member : Event.toDirect sent ∈ [Event.routed body now .direct] := by
      rw [isEvents]
      exact List.mem_append_right _ List.mem_cons_self
    simp at member
  | @failed destination now reason replayable remote =>
    intro later sent earlier isEvents
    have member : Event.toDirect sent ∈ [.ended (decide (destination = .probe)) (.failed reason),
        .toRemote body, .routed body now destination] := by
      rw [isEvents]
      exact List.mem_append_right _ List.mem_cons_self
    simp at member
  | sent once diverted inductionHypothesis =>
    intro later sent earlier isEvents
    cases later with
    | nil =>
      obtain ⟨same, rfl⟩ := List.cons.inj isEvents
      exact ⟨(Event.toDirect.inj same).symm, diverted⟩
    | cons first later => exact inductionHypothesis later sent earlier (List.cons.inj isEvents).2

theorem Diverted.replayed {body : Body} {events : List Event} (diverted : Diverted body events) :
    ∀ sent, .toRemote sent ∈ events →
      body.isStream = false ∧ ∃ isProbe reason, .ended isProbe (.failed reason) ∈ events := by
  induction diverted with
  | routed now => simp
  | failed now reason replayable remote =>
    exact fun sent member => ⟨replayable, _, reason, List.mem_cons_self⟩
  | sent once diverted inductionHypothesis =>
    intro sent member
    obtain same | earlier := List.mem_cons.mp member
    · exact nomatch same
    · obtain ⟨replayable, isProbe, reason, ended⟩ := inductionHypothesis sent earlier
      exact ⟨replayable, isProbe, reason, List.mem_cons_of_mem _ ended⟩

theorem Diverted.hands {body : Body} {events : List Event} (diverted : Diverted body events) :
    (∀ other now destination, .routed other now destination ∈ events → other = body) ∧
      (∀ sent ∈ handed events, sent = body) ∧
      (body.isStream = true → (handed events).length ≤ 1) := by
  induction diverted with
  | routed now => simp +contextual
  | failed now reason replayable remote => simp +contextual [replayable]
  | sent once diverted inductionHypothesis =>
    obtain ⟨bodies, same, short⟩ := inductionHypothesis
    refine ⟨?_, ?_, ?_⟩
    · intro other now destination member
      obtain first | earlier := List.mem_cons.mp member
      · exact nomatch first
      · exact bodies other now destination earlier
    · intro sent member
      obtain rfl | earlier := List.mem_cons.mp member
      · rfl
      · exact same sent earlier
    · intro isStream
      simp [once isStream]

theorem Life.replaysFailures {events : List Event} (life : Life events) :
    ReplaysFailures events := by
  intro later body earlier isEvents sent member
  have isSent : Event.toDirect body ∈ events := by
    rw [isEvents]
    exact List.mem_append_right _ List.mem_cons_self
  cases life with
  | diverted diverted =>
    obtain ⟨rfl, before⟩ := diverted.of_append later body earlier isEvents
    exact before.replayed sent member
  | _ => simp at isSent

theorem Life.handsOnce {events : List Event} (life : Life events) : HandsOnce events := by
  intro body now destination member
  cases life with
  | diverted diverted =>
    obtain ⟨bodies, same, short⟩ := diverted.hands
    obtain rfl := bodies body now destination member
    exact ⟨same, short⟩
  | new => exact nomatch member
  | routed => simp_all
  | sent => simp_all
  | ended => simp_all

/-! ### What a request guarantees -/

section Guarantees

variable [DecidableEq Thread] (deps : LocalGatewayDeps)

/-- The events of one request. -/
def eventsOf (thread : Thread) (world : World Thread) : List Event :=
  (world.trace.filter (·.1 = thread)).map Prod.snd

/-- How the breaker turns when a request records an event. -/
def Turns (event : Event) (before after : Breaker) : Prop :=
  match event with
  | .routed body now destination => before.choose deps body now = (destination, after)
  | .ended isProbe how => ∃ now later, after = before.ended deps isProbe how now later
  | .toRemote _ | .toDirect _ => after = before

/-- A request changes nothing, or records an event that goes on its life. -/
def Kept (thread : Thread) (before after : World Thread) : Prop :=
  after = before ∨ ∃ event, after = before.record thread event after.breaker ∧
    Life (event :: eventsOf thread before) ∧ Turns deps event before.breaker after.breaker

def ProbeInFlight (thread : Thread) (world : World Thread) : Prop :=
  probing (eventsOf thread world) = true

/-- What holds in every world: all lives are lives, and the breaker knows of the one probe. -/
structure Sound (world : World Thread) : Prop where
  lives : ∀ thread, Life (eventsOf thread world)
  alone : ∀ first second, ProbeInFlight first world → ProbeInFlight second world → first = second
  known : world.breaker.probing = true ↔ ∃ thread, ProbeInFlight thread world

variable {deps} {thread other : Thread} {world before after : World Thread} {event : Event}
  {breaker : Breaker}

@[simp] theorem eventsOf_record_self :
    eventsOf thread (world.record thread event breaker) = event :: eventsOf thread world := by
  simp [eventsOf, World.record]

theorem eventsOf_record_other (differs : thread ≠ other) :
    eventsOf other (world.record thread event breaker) = eventsOf other world := by
  simp [eventsOf, World.record, differs]

omit [DecidableEq Thread] in
@[simp] theorem record_breaker : (world.record thread event breaker).breaker = breaker := rfl

theorem Kept.eventsOf_other (kept : Kept deps thread before after) (differs : thread ≠ other) :
    eventsOf other after = eventsOf other before := by
  obtain rfl | ⟨event, recorded, -⟩ := kept
  · rfl
  · rw [recorded]
    exact eventsOf_record_other differs

/-- The life of a request up to the event that it records. -/
theorem Life.before_routed {body : Body} {now : ℚ} {destination : Destination}
    {events : List Event} (life : Life (.routed body now destination :: events)) : events = [] := by
  cases life with
  | routed => rfl
  | diverted diverted =>
    cases diverted
    rfl

theorem Life.before_ended {isProbe : Bool} {how : Ended} {events : List Event}
    (life : Life (.ended isProbe how :: events)) : ∃ body now destination,
      isProbe = decide (destination = .probe) ∧
        events = [.toRemote body, .routed body now destination] := by
  cases life with
  | ended body now how remote => exact ⟨body, now, _, rfl, rfl⟩
  | diverted diverted =>
    cases diverted
    exact ⟨_, _, _, rfl, rfl⟩

theorem Life.before_toRemote {body : Body} {events : List Event}
    (life : Life (.toRemote body :: events)) :
    ∃ now destination, events = [.routed body now destination] := by
  cases life with
  | sent => exact ⟨_, _, rfl⟩
  | diverted diverted => cases diverted

theorem Life.before_toDirect {body : Body} {events : List Event}
    (life : Life (.toDirect body :: events)) : probing events = false := by
  cases life with
  | diverted diverted =>
    cases diverted with
    | sent once diverted => exact diverted.not_probing

/-! ### The breaker knows of the probe -/

@[simp] theorem setMode_probing {mode : Mode} {now : ℚ} :
    (breaker.setMode mode now).probing = breaker.probing := by
  unfold Breaker.setMode
  split <;> rfl

theorem ended_probing {isProbe : Bool} {how : Ended} {now later : ℚ} :
    (breaker.ended deps isProbe how now later).probing = (breaker.probing && !isProbe) := by
  cases isProbe <;> cases how <;>
    simp [Breaker.ended, Breaker.remoteOk, Breaker.remoteFailed]
  split <;> simp

/-- Only the probe may close the breaker. -/
theorem ended_mode {isProbe : Bool} {how : Ended} {now later : ℚ}
    (isDirect : breaker.mode = .direct)
    (isRemote : (breaker.ended deps isProbe how now later).mode = .remote) :
    isProbe = true ∧ how = .answered := by
  cases isProbe <;> cases how <;>
    simp_all [Breaker.ended, Breaker.remoteOk, Breaker.remoteFailed, Breaker.setMode]

theorem choose_mode (deps : LocalGatewayDeps) (breaker : Breaker) (body : Body) (now : ℚ) :
    (breaker.choose deps body now).2.mode = breaker.mode := by
  unfold Breaker.choose
  split
  · rfl
  · split <;> rfl

theorem choose_probe (deps : LocalGatewayDeps) (breaker : Breaker) (body : Body) (now : ℚ) :
    ((breaker.choose deps body now).1 = .probe ∧ breaker.probing = false ∧
        (breaker.choose deps body now).2.probing = true) ∨
      ((breaker.choose deps body now).1 ≠ .probe ∧
        (breaker.choose deps body now).2.probing = breaker.probing) := by
  unfold Breaker.choose
  split
  · exact .inr ⟨nofun, rfl⟩
  · split
    · rename_i free
      exact .inl ⟨rfl, free.2.2, rfl⟩
    · exact .inr ⟨nofun, rfl⟩

/-- The probes in flight of the other requests are the same. -/
def SameOthers (thread : Thread) (before after : World Thread) : Prop :=
  ∀ other, thread ≠ other → (ProbeInFlight other after ↔ ProbeInFlight other before)

theorem Sound.unchanged (sound : Sound before) (lives : ∀ thread, Life (eventsOf thread after))
    (others : SameOthers thread before after)
    (own : ProbeInFlight thread after ↔ ProbeInFlight thread before)
    (same : after.breaker.probing = before.breaker.probing) : Sound after := by
  have all : ∀ other, ProbeInFlight other after ↔ ProbeInFlight other before := fun other => by
    by_cases differs : thread = other
    · rwa [← differs]
    · exact others other differs
  refine ⟨lives, fun first second => ?_, ?_⟩
  · rw [all, all]
    exact sound.alone first second
  · rw [same, sound.known]
    exact exists_congr fun other => (all other).symm

theorem Sound.started (sound : Sound before) (lives : ∀ thread, Life (eventsOf thread after))
    (others : SameOthers thread before after) (own : ProbeInFlight thread after)
    (free : before.breaker.probing = false) (taken : after.breaker.probing = true) :
    Sound after := by
  have none : ∀ other, ¬ProbeInFlight other before := fun other flies => by
    rw [sound.known.mpr ⟨other, flies⟩] at free
    exact nomatch free
  have only : ∀ other, ProbeInFlight other after → thread = other := fun other flies => by
    by_contra differs
    exact none other ((others other differs).mp flies)
  exact ⟨lives, fun first second one two => (only first one).symm.trans (only second two),
    fun _ => ⟨thread, own⟩, fun _ => taken⟩

theorem Sound.finished (sound : Sound before) (lives : ∀ thread, Life (eventsOf thread after))
    (others : SameOthers thread before after) (was : ProbeInFlight thread before)
    (own : ¬ProbeInFlight thread after) (free : after.breaker.probing = false) : Sound after := by
  have none : ∀ other, ¬ProbeInFlight other after := fun other flies => by
    by_cases differs : thread = other
    · exact own (differs ▸ flies)
    · exact differs (sound.alone thread other was ((others other differs).mp flies))
  refine ⟨lives, fun first _ one => absurd one (none first), ?_⟩
  rw [free]
  exact ⟨nofun, fun ⟨other, flies⟩ => absurd flies (none other)⟩

/-- One event of a request that keeps its guarantee. -/
theorem Sound.kept (sound : Sound before) (kept : Kept deps thread before after) :
    Sound after := by
  have lives : ∀ other, Life (eventsOf other after) := fun other => by
    by_cases differs : thread = other
    · obtain rfl | ⟨event, recorded, life, -⟩ := kept
      · exact sound.lives other
      · rw [recorded, ← differs, eventsOf_record_self]
        exact life
    · rw [kept.eventsOf_other differs]
      exact sound.lives other
  have others : SameOthers thread before after := fun other differs => by
    unfold ProbeInFlight
    rw [kept.eventsOf_other differs]
  obtain rfl | ⟨event, recorded, life, turns⟩ := kept
  · exact sound
  have own : eventsOf thread after = event :: eventsOf thread before := by
    rw [recorded, eventsOf_record_self]
  cases event with
  | routed body now destination =>
    have fresh := life.before_routed
    have turned : before.breaker.choose deps body now = (destination, after.breaker) := turns
    have chosen := choose_probe deps before.breaker body now
    rw [turned] at chosen
    obtain ⟨isProbe, free, taken⟩ | ⟨notProbe, same⟩ := chosen
    · refine sound.started lives others ?_ free taken
      show probing (eventsOf thread after) = true
      rw [own, fresh]
      simpa [probing, Event.startsProbe, Event.endsRemote] using isProbe
    · refine sound.unchanged lives others ?_ same
      show probing (eventsOf thread after) = true ↔ probing (eventsOf thread before) = true
      rw [own, fresh]
      simpa [probing, Event.startsProbe, Event.endsRemote] using notProbe
  | toRemote body =>
    refine sound.unchanged lives others ?_ (congrArg Breaker.probing turns)
    show probing (eventsOf thread after) = true ↔ probing (eventsOf thread before) = true
    rw [own]
    simp [probing, Event.startsProbe, Event.endsRemote]
  | toDirect body =>
    refine sound.unchanged lives others ?_ (congrArg Breaker.probing turns)
    show probing (eventsOf thread after) = true ↔ probing (eventsOf thread before) = true
    rw [own]
    simp [probing, Event.startsProbe, Event.endsRemote]
  | ended isProbe how =>
    obtain ⟨body, now, destination, rfl, was⟩ := life.before_ended
    obtain ⟨first, second, turned⟩ := turns
    have flag : after.breaker.probing = (before.breaker.probing && !decide (destination = .probe)) := by
      rw [turned]
      exact ended_probing
    have idle : ¬ProbeInFlight thread after := by
      unfold ProbeInFlight
      rw [own]
      simp [probing, Event.endsRemote]
    by_cases isProbe : destination = .probe
    · have flew : ProbeInFlight thread before := by
        unfold ProbeInFlight
        rw [was]
        simp [probing, Event.startsProbe, Event.endsRemote, isProbe]
      exact sound.finished lives others flew idle (by simp [flag, isProbe])
    · refine sound.unchanged lives others ⟨fun flies => absurd flies idle, fun flew => ?_⟩
        (by simp [flag, isProbe])
      unfold ProbeInFlight at flew
      rw [was] at flew
      simp [probing, Event.startsProbe, Event.endsRemote, isProbe] at flew

end Guarantees

end AiSwitcher.Gateway.Local
