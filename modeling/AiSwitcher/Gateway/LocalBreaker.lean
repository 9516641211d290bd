/-
This file proves what the breaker of the local gateway guarantees for any number of concurrent
requests in any order of their steps: a request is sent a second time only if its body can be
replayed and the remote never took it, at most one request at a time probes the remote, only a
probe closes the breaker, and no way for a probe to end leaves the gateway waiting for it.
-/

import AiSwitcher.Gateway.LocalLives

namespace AiSwitcher.Gateway.Local

open JavaScript Interrupted
open Proxy (Thrown ProviderCredential Body Response ApiStyle)

variable {Thread : Type}

section Guarantees

variable [DecidableEq Thread] {deps : LocalGatewayDeps} {thread : Thread} {world : World Thread}
  {event : Event} {breaker : Breaker}

/-! ### Requests keep their guarantee -/

/-- The events of the request, whatever the others do. -/
def Owns (thread : Thread) (events : List Event) (world : World Thread) : Prop :=
  eventsOf thread world = events

theorem stable_owns {events : List Event} :
    Stable (Kept deps) nobody thread (Owns thread events) := by
  intro before after others owns
  obtain none | ⟨other, differs, kept⟩ := others
  · exact none.elim
  · exact (kept.eventsOf_other differs).trans owns

variable {First Result : Type} {events : List Event}
  {post : Except LocalError Result → World Thread → Prop}

/-- The actions that leave the world as it is. -/
def Looks : (Answer : Type) → LocalAction Answer → Prop
  | _, .choose _ | _, .fetchRemote .. | _, .remoteEnded .. | _, .fetchDirect .. => False
  | _, _ => True

variable (deps thread) in
/-- The request keeps its guarantee, whatever the others do meanwhile, and ends in `post`. -/
abbrev Keeps (post : Except LocalError Result → World Thread → Prop)
    (program : LocalHandling Result) (world : World Thread) : Prop :=
  program.secure (Kept deps) nobody (Chosen (answers deps)) thread post world

theorem looks_keeps (Answer : Type) (action : LocalAction Answer) (looks : Looks Answer action)
    (world : World Thread) (result : Answer) (after : World Thread) (owns : Owns thread events world)
    (answered : Chosen (answers deps) thread Answer action world result after) :
    Kept deps thread world after ∧ Owns thread events after := by
  have same : after = world := by
    obtain ⟨choice, answered⟩ := answered
    cases action <;> first | exact looks.elim | (cases answered; rfl)
  subst same
  exact ⟨.inl rfl, owns⟩

/-- Going on after actions that leave the world as it is. -/
theorem keeps_looks_bind {program : LocalHandling First} {next : First → LocalHandling Result}
    (looks : program.Uses Looks) (owns : Owns thread events world)
    (goesOn : ∀ result later, Owns thread events later → Keeps deps thread post (next result) later)
    (failed : ∀ error later, Owns thread events later → post (.error error) later) :
    Keeps deps thread post (program >>= next) world :=
  Program.secure_uses_bind stable_owns looks_keeps looks owns goesOn failed

theorem keeps_look {Answer : Type} {action : LocalAction Answer}
    {next : Answer → LocalHandling Result} (looks : Looks Answer action)
    (owns : Owns thread events world)
    (goesOn : ∀ result later, Owns thread events later →
      Keeps deps thread post (next result) later) :
    Keeps deps thread post (.perform action >>= next) world := by
  intro later relies result after answered
  obtain ⟨kept, still⟩ := looks_keeps _ action looks later result after
    (stable_owns.relied relies owns) answered
  exact ⟨kept, goesOn result after still⟩

theorem keeps_done {result : Result} (owns : Owns thread events world)
    (ends : ∀ later, Owns thread events later → post (.ok result) later) :
    Keeps deps thread post (.done result) world :=
  fun later relies => ends later (stable_owns.relied relies owns)

theorem keeps_fail {error : LocalError} (owns : Owns thread events world)
    (ends : ∀ later, Owns thread events later → post (.error error) later) :
    Keeps deps thread post (.fail error) world :=
  fun later relies => ends later (stable_owns.relied relies owns)

/-- Recording an event that goes on the life of the request. -/
theorem kept_record (owns : Owns thread events world) (life : Life (event :: events))
    (turns : Turns deps event world.breaker breaker) :
    Kept deps thread world (world.record thread event breaker) ∧
      Owns thread (event :: events) (world.record thread event breaker) := by
  refine ⟨.inr ⟨event, rfl, ?_, turns⟩, ?_⟩
  · rw [show eventsOf thread world = events from owns]
    exact life
  · show eventsOf thread _ = _
    rw [eventsOf_record_self, show eventsOf thread world = events from owns]

theorem keeps_choose {body : Body} {next : Destination → LocalHandling Result}
    (owns : Owns thread [] world)
    (goesOn : ∀ now destination later, Owns thread [.routed body now destination] later →
      Keeps deps thread post (next destination) later) :
    Keeps deps thread post (.perform (.choose body) >>= next) world := by
  rintro later relies destination after ⟨choice, answered⟩
  cases answered
  obtain ⟨kept, owned⟩ := kept_record (stable_owns.relied relies owns)
    (Life.routed body choice.now (later.breaker.choose deps body choice.now).1)
    (show Turns deps _ later.breaker (later.breaker.choose deps body choice.now).2 from rfl)
  exact ⟨kept, goesOn choice.now _ _ owned⟩

theorem keeps_fetchRemote {body : Body} {now : ℚ} {destination : Destination} {url : String}
    {headers : Proxy.Headers} {next : Except FetchError Response → LocalHandling Result}
    (owns : Owns thread [.routed body now destination] world) (remote : destination ≠ .direct)
    (goesOn : ∀ result later, Owns thread [.toRemote body, .routed body now destination] later →
      Keeps deps thread post (next result) later) :
    Keeps deps thread post (.perform (.fetchRemote url headers body) >>= next) world := by
  rintro later relies result after ⟨choice, answered⟩
  cases answered
  obtain ⟨kept, owned⟩ := kept_record (stable_owns.relied relies owns)
    (Life.sent body now remote) (show Turns deps _ later.breaker later.breaker from rfl)
  exact ⟨kept, goesOn _ _ owned⟩

theorem keeps_remoteEnded {body : Body} {now : ℚ} {destination : Destination} {how : Ended}
    {next : Unit → LocalHandling Result}
    (owns : Owns thread [.toRemote body, .routed body now destination] world)
    (remote : destination ≠ .direct)
    (goesOn : ∀ later, Owns thread [.ended (decide (destination = .probe)) how, .toRemote body,
      .routed body now destination] later → Keeps deps thread post (next ()) later) :
    Keeps deps thread post
      (.perform (.remoteEnded (decide (destination = .probe)) how) >>= next) world := by
  rintro later relies ⟨⟩ after ⟨choice, answered⟩
  cases answered
  obtain ⟨kept, owned⟩ := kept_record (stable_owns.relied relies owns)
    (Life.ended body now how remote)
    (show Turns deps _ later.breaker _ from ⟨choice.now, choice.later, rfl⟩)
  exact ⟨kept, goesOn _ owned⟩

theorem keeps_fetchDirect {body : Body} {cred : ProviderCredential}
    {next : Option Response → LocalHandling Result} (owns : Owns thread events world)
    (diverted : Diverted body (.toDirect body :: events))
    (goesOn : ∀ result later, Owns thread (.toDirect body :: events) later →
      Keeps deps thread post (next result) later) :
    Keeps deps thread post (.perform (.fetchDirect cred body) >>= next) world := by
  rintro later relies result after ⟨choice, answered⟩
  cases answered
  obtain ⟨kept, owned⟩ := kept_record (stable_owns.relied relies owns)
    (Life.diverted diverted) (show Turns deps _ later.breaker later.breaker from rfl)
  exact ⟨kept, goesOn _ _ owned⟩

/-! ### The parts of a request -/

theorem looks_credentialFrom {action : LocalAction (Except Thrown ProviderCredential)}
    (looks : Looks _ action) : (credentialFrom action).Uses Looks := by
  refine ⟨looks, fun result => ?_⟩
  cases result <;> trivial

theorem looks_peek {res : Response} {cap : Nat} : (peek res cap).Uses Looks := by
  unfold peek
  split
  · refine ⟨trivial, fun peeked => ?_⟩
    cases peeked <;> trivial
  · trivial

theorem looks_freshened {tool : Tool} {identity : String} {cred : ProviderCredential} :
    (freshened tool identity cred).Uses Looks := by
  unfold freshened
  split
  · trivial
  · refine ⟨trivial, fun now => ?_⟩
    show (if _ then _ else _ : LocalHandling ProviderCredential).Uses Looks
    split
    · refine Program.uses_bind (Program.uses_outcome (looks_credentialFrom trivial))
        fun refreshed => ?_
      cases refreshed with
      | ok cred => trivial
      | error error =>
        show (if _ then _ else _ : LocalHandling ProviderCredential).Uses Looks
        split <;> trivial
    · trivial

/-- How an attempt on the direct path ends: a stream was not yet handed on if it is a credential
that failed. -/
def Attempted (thread : Thread) (body : Body) (outcome : Except LocalError Response)
    (world : World Thread) : Prop :=
  ∃ events, Owns thread events world ∧ Diverted body events ∧
    ∀ error, outcome = .error error → isCredentialError error = true → body.isStream = true →
      handed events = []

theorem keeps_send {body : Body} {cred : ProviderCredential}
    {post : Except LocalError Response → World Thread → Prop} (owns : Owns thread events world)
    (diverted : Diverted body (.toDirect body :: events))
    (answered : ∀ res later, Owns thread (.toDirect body :: events) later → post (.ok res) later)
    (failed : ∀ later, Owns thread (.toDirect body :: events) later →
      post (.error (.thrown .other)) later) :
    Keeps deps thread post (send body cred) world := by
  refine keeps_fetchDirect owns diverted fun result later owned => ?_
  cases result with
  | some res => exact keeps_done owned (answered res)
  | none => exact keeps_fail owned failed

theorem keeps_attempt {tool : Tool} {body : Body} {identity : String}
    (owns : Owns thread events world) (diverted : Diverted body events)
    (first : body.isStream = true → handed events = []) :
    Keeps deps thread (Attempted thread body) (attempt tool body identity) world := by
  refine keeps_looks_bind (looks_credentialFrom trivial) owns (fun stored later owned => ?_)
    fun error later owned => ⟨events, owned, diverted, fun _ _ _ => first⟩
  refine keeps_looks_bind looks_freshened owned (fun cred later owned => ?_)
    fun error later owned => ⟨events, owned, diverted, fun _ _ _ => first⟩
  have sent : Diverted body (.toDirect body :: events) := .sent first diverted
  refine Program.secure_bind _ _ (keeps_send owned sent (fun res later owned => ?_)
    fun later owned => ⟨_, owned, sent, fun error isError isCredential => ?_⟩)
  · have ends : ∀ latest, Owns thread (.toDirect body :: events) latest →
        Attempted thread body (.ok res) latest :=
      fun latest owned => ⟨_, owned, sent, nofun⟩
    show Keeps deps thread (Attempted thread body) (if _ then _ else _) later
    split
    · rename_i isUnauthorised
      have replayable : ∀ {wanted : Prop}, body.isStream = true → wanted := fun isStream => by
        rw [isUnauthorised.2.2] at isStream
        exact nomatch isStream
      refine keeps_looks_bind (Program.uses_outcome (looks_credentialFrom trivial)) owned
        (fun refreshed later owned => ?_)
        fun error later owned => ⟨_, owned, sent, fun _ _ _ => replayable⟩
      have gaveUp : ∀ error, Keeps deps thread (Attempted thread body)
          (.perform (.discard res) >>= fun _ => .fail error) later := fun error =>
        keeps_look trivial owned fun _ later owned =>
          keeps_fail owned fun later owned => ⟨_, owned, sent, fun _ _ _ => replayable⟩
      cases refreshed with
      | ok cred =>
        have again : Diverted body (.toDirect body :: .toDirect body :: events) :=
          .sent (fun isStream => replayable isStream) sent
        refine keeps_look trivial owned fun _ later owned => keeps_send owned again
          (fun res later owned => ⟨_, owned, again, nofun⟩)
          fun later owned => ⟨_, owned, again, fun _ _ _ => replayable⟩
      | error error =>
        cases error with
        | thrown error =>
          cases error with
          | refreshCooldown => exact keeps_done owned ends
          | notRefreshable => exact keeps_done owned ends
          | _ => exact gaveUp _
        | _ => exact gaveUp _
    · exact keeps_done owned ends
  · obtain rfl := Except.error.inj isError
    exact nomatch isCredential

section Replies

variable {Native : Type} {runtime : LocalRuntime Native}

theorem looks_isQuota {res : Response} : (isQuota runtime res).Uses Looks := by
  unfold isQuota
  split
  · trivial
  · split
    · trivial
    · exact Program.uses_bind looks_peek fun _ => trivial

theorem looks_discardQuota {passed : Passed} : (discardQuota passed).Uses Looks := by
  unfold discardQuota
  split
  · exact ⟨trivial, fun _ => trivial⟩
  · trivial

theorem looks_failedReply {style : ApiStyle} {passed : Passed} {error : LocalError} :
    (failedReply style passed error).Uses Looks := by
  refine Program.uses_bind looks_discardQuota fun _ => ⟨trivial, fun gone => ?_⟩
  cases gone with
  | true => trivial
  | false =>
    cases error with
    | thrown error => cases error <;> trivial
    | _ => trivial

theorem looks_exhaustedReply {style : ApiStyle} {passed : Passed} :
    (exhaustedReply runtime style passed).Uses Looks := by
  unfold exhaustedReply
  split
  · trivial
  · exact looks_failedReply
  · exact looks_failedReply
  · trivial

/-- The request is no probe in flight any more. -/
def Finished (thread : Thread) (_ : Except LocalError LocalReply) (world : World Thread) : Prop :=
  ¬ProbeInFlight thread world

theorem finished_of_diverted {body : Body} {outcome : Except LocalError LocalReply}
    (diverted : Diverted body events) (owns : Owns thread events world) :
    Finished thread outcome world := by
  unfold Finished ProbeInFlight
  rw [show eventsOf thread world = events from owns, diverted.not_probing]
  exact Bool.false_ne_true

/-- What is left of a request that only looks. -/
theorem keeps_reply {body : Body} {program : LocalHandling LocalReply}
    (looks : program.Uses Looks) (owns : Owns thread events world)
    (diverted : Diverted body events) : Keeps deps thread (Finished thread) program world := by
  refine Program.secure_mono ?_ program world
    (Program.secure_of_uses stable_owns looks_keeps looks owns)
  exact fun outcome later owned => finished_of_diverted diverted owned

theorem keeps_tryMembers {tool : Tool} {style : ApiStyle} {body : Body} {names : List String} :
    ∀ {passed : Passed} {events : List Event} {world : World Thread}, Owns thread events world →
      Diverted body events → (body.isStream = true → handed events = []) →
      Keeps deps thread (Finished thread) (tryMembers runtime tool style body names passed)
        world := by
  induction names with
  | nil => exact fun owns diverted _ => keeps_reply looks_exhaustedReply owns diverted
  | cons name names inductionHypothesis =>
    intro passed events world owns diverted first
    refine Program.secure_outcome_bind _ _ (Program.secure_mono ?_ _ _
      (keeps_attempt owns diverted first))
    rintro outcome world ⟨events, owned, diverted, unsent⟩ later relies
    have owned := stable_owns.relied relies owned
    cases outcome with
    | error error =>
      refine keeps_look trivial owned fun gone later owned => ?_
      show Keeps deps thread (Finished thread) (if _ then _ else _) later
      split
      · exact keeps_reply looks_failedReply owned diverted
      · rename_i goesOn
        rw [not_or, Bool.not_eq_false] at goesOn
        exact inductionHypothesis owned diverted (unsent error rfl goesOn.2)
    | ok up =>
      show Keeps deps thread (Finished thread) (if _ then _ else _) later
      split
      · exact keeps_done owned fun later owned => finished_of_diverted diverted owned
      · rename_i replayable
        refine keeps_looks_bind (Program.uses_outcome looks_isQuota) owned
          (fun quota later owned => ?_)
          fun error later owned => finished_of_diverted diverted owned
        cases quota with
        | error error => exact keeps_reply looks_failedReply owned diverted
        | ok quota =>
          refine keeps_looks_bind looks_discardQuota owned (fun _ later owned => ?_)
            fun error later owned => finished_of_diverted diverted owned
          show Keeps deps thread (Finished thread) (if _ then _ else _) later
          split
          · exact inductionHypothesis owned diverted fun isStream => absurd isStream replayable
          · exact keeps_done owned fun later owned => finished_of_diverted diverted owned

theorem keeps_direct {tool : Tool} {style : ApiStyle} {body : Body}
    (owns : Owns thread events world) (diverted : Diverted body events)
    (first : body.isStream = true → handed events = []) :
    Keeps deps thread (Finished thread) (direct runtime tool style body) world := by
  refine keeps_look trivial owns fun listed later owned => ?_
  show Keeps deps thread (Finished thread) (if _ then _ else _) later
  split
  · exact keeps_done owned fun later owned => finished_of_diverted diverted owned
  · exact keeps_tryMembers owned diverted first

/-- The request has only been routed to the remote and sent there. -/
theorem keeps_tryRemote {req : Request} {app rest : String} {body : Body} {now : ℚ}
    {destination : Destination} (owns : Owns thread [.routed body now destination] world)
    (remote : destination ≠ .direct) :
    Keeps deps thread (fun _ => Owns thread [.toRemote body, .routed body now destination])
      (tryRemote runtime deps req app rest body) world := by
  refine keeps_fetchRemote owns remote fun fetched later owned => ?_
  have looks : ∀ program : LocalHandling Response, program.Uses Looks →
      Keeps deps thread (fun _ => Owns thread [.toRemote body, .routed body now destination])
        program later :=
    fun program looks => Program.secure_of_uses stable_owns looks_keeps looks owned
  refine looks _ ?_
  cases fetched with
  | error err => trivial
  | ok res =>
    show (if _ then _ else _ : LocalHandling Response).Uses Looks
    split
    · trivial
    · split
      · trivial
      · split
        · refine Program.uses_bind looks_peek fun peeked => ?_
          show (if _ then _ else _ : LocalHandling Response).Uses Looks
          split <;> trivial
        · trivial

/-- A request whose remote attempt has ended. -/
theorem finished_of_ended {body : Body} {now : ℚ} {destination : Destination} {isProbe : Bool}
    {how : Ended} {outcome : Except LocalError LocalReply}
    (owns : Owns thread [.ended isProbe how, .toRemote body, .routed body now destination] world) :
    Finished thread outcome world := by
  unfold Finished ProbeInFlight
  rw [show eventsOf thread world = _ from owns]
  simp [probing, Event.endsRemote]

theorem keeps_viaRemote {req : Request} {route : Route} {rest : String} {body : Body} {now : ℚ}
    {destination : Destination} (owns : Owns thread [.routed body now destination] world)
    (remote : destination ≠ .direct) :
    Keeps deps thread (Finished thread)
      (viaRemote runtime deps req route rest body (decide (destination = .probe))) world := by
  refine Program.secure_outcome_bind _ _ (Program.secure_mono ?_ _ _ (keeps_tryRemote owns remote))
  intro outcome world owned later relies
  have owned := stable_owns.relied relies owned
  have otherwise : ∀ reply, Keeps deps thread (Finished thread)
      (.perform (.remoteEnded (decide (destination = .probe)) .otherwise) >>= fun _ => .done reply)
      later := fun reply =>
    keeps_remoteEnded owned remote fun later owned =>
      keeps_done owned fun later owned => finished_of_ended owned
  cases outcome with
  | ok res =>
    exact keeps_remoteEnded owned remote fun later owned =>
      keeps_done owned fun later owned => finished_of_ended owned
  | error error =>
    cases error with
    | remoteIdle => exact otherwise _
    | remoteOther => exact otherwise _
    | thrown error => exact otherwise _
    | remoteFailure reason response =>
      refine keeps_remoteEnded owned remote fun later owned => ?_
      show Keeps deps thread (Finished thread) (replay runtime route body response) later
      unfold replay
      split
      · exact keeps_done owned fun later owned => finished_of_ended owned
      · exact keeps_done owned fun later owned => finished_of_ended owned
      · rename_i replayable
        exact keeps_look trivial owned fun _ later owned =>
          keeps_direct owned (.failed now reason replayable remote)
            fun isStream => absurd (replayable.symm.trans isStream) Bool.false_ne_true
      · rename_i replayable
        exact keeps_direct owned (.failed now reason replayable remote)
          fun isStream => absurd (replayable.symm.trans isStream) Bool.false_ne_true

theorem finished_of_new {outcome : Except LocalError LocalReply} (owns : Owns thread [] world) :
    Finished thread outcome world := by
  unfold Finished ProbeInFlight
  rw [show eventsOf thread world = _ from owns]
  exact Bool.false_ne_true

theorem keeps_forward {req : Request} {route : Route} {rest : String} {body : Body}
    (owns : Owns thread [] world) :
    Keeps deps thread (Finished thread) (forward runtime deps req route rest body) world := by
  refine keeps_choose owns fun now destination later owned => ?_
  cases destination with
  | remote => exact keeps_viaRemote owned nofun
  | probe => exact keeps_viaRemote owned nofun
  | direct => exact keeps_direct owned (.routed now) fun _ => rfl

theorem keeps_receive {req : Request} {route : Route} {rest : String}
    (owns : Owns thread [] world) :
    Keeps deps thread (Finished thread) (receive runtime deps req route rest) world := by
  refine keeps_look trivial owns fun expected later owned => ?_
  show Keeps deps thread (Finished thread) (if _ then _ else _) later
  split
  · refine keeps_look trivial owned fun body later owned => ?_
    cases body with
    | some body => exact keeps_forward owned
    | none =>
      refine keeps_look trivial owned fun gone later owned => ?_
      cases gone <;> exact keeps_done owned fun later owned => finished_of_new owned
  · exact keeps_done owned fun later owned => finished_of_new owned

/-- A request keeps its guarantee from its first step on, and ends as no probe. -/
theorem keeps_handle {req : Request} (owns : Owns thread [] world) :
    Keeps deps thread (Finished thread) (handle runtime deps req) world := by
  refine keeps_look trivial owns fun hosts later owned => ?_
  show Keeps deps thread (Finished thread) (if _ then _ else _) later
  split
  · exact keeps_done owned fun later owned => finished_of_new owned
  · split
    · exact keeps_look trivial owned fun breaker later owned =>
        keeps_done owned fun later owned => finished_of_new owned
    · split
      split
      · exact keeps_receive owned
      · split
        · exact keeps_done owned fun later owned => finished_of_new owned
        · exact keeps_done owned fun later owned => finished_of_new owned

/-! ### Every interleaving -/

variable {requests : Thread → Request} {start : ℚ} {crew next : Requests Thread}

theorem sound_opening : Sound (opening runtime deps requests start).world := by
  refine ⟨fun thread => .new, ?_, ?_⟩
  · exact fun first _ flies => absurd flies Bool.false_ne_true
  · exact ⟨nofun, fun ⟨_, flies⟩ => absurd flies Bool.false_ne_true⟩

theorem Sound.run {before after : World Thread} (sound : Sound before)
    (run : Relation.ReflTransGen (Anyone (Kept deps) nobody) before after) : Sound after := by
  induction run with
  | refl => exact sound
  | tail _ last inductionHypothesis =>
    obtain none | ⟨thread, kept⟩ := last
    · exact none.elim
    · exact inductionHypothesis.kept kept

/-- The requests of a gateway that are still to be answered keep their guarantee. -/
abbrev Safe (deps : LocalGatewayDeps) (crew : Requests Thread) : Prop :=
  crew.Secure (Kept deps) nobody (Chosen (answers deps)) Finished

theorem reaches_sound (reaches : Reaches deps (opening runtime deps requests start) crew) :
    Sound crew.world ∧ Safe deps crew := by
  have opened : Safe deps (opening runtime deps requests start) := fun thread =>
    keeps_handle (show Owns thread [] _ from rfl)
  obtain ⟨run, safe⟩ := Crew.Reaches.secure reaches opened
  exact ⟨sound_opening.run run, safe⟩

theorem Safe.step (safe : Safe deps crew) (step : Step deps crew next) :
    ∃ thread, Kept deps thread crew.world next.world := by
  obtain none | kept := (Crew.Secure.step safe step).1
  · exact none.elim
  · exact kept

/-- The breaker turns as the event says that a step records. -/
theorem Safe.turns (safe : Safe deps crew) (step : Step deps crew next) {thread : Thread}
    {event : Event} (records : next.world.trace = (thread, event) :: crew.world.trace) :
    Life (event :: eventsOf thread crew.world) ∧
      Turns deps event crew.world.breaker next.world.breaker := by
  obtain ⟨other, same | ⟨recorded, after, life, turns⟩⟩ := safe.step step
  · rw [same] at records
    exact absurd records (List.ne_cons_self)
  · rw [after] at records
    obtain ⟨first, -⟩ := List.cons.inj records
    obtain ⟨rfl, rfl⟩ := Prod.mk.inj first
    exact ⟨life, turns⟩

/-- Direct mode is left only when the probe is answered. -/
theorem Safe.leavesDirect (safe : Safe deps crew) (step : Step deps crew next)
    (isDirect : crew.world.breaker.mode = .direct) (isRemote : next.world.breaker.mode = .remote) :
    ∃ thread, ProbeInFlight thread crew.world ∧
      next.world.trace = (thread, .ended true .answered) :: crew.world.trace := by
  obtain ⟨thread, same | ⟨event, after, life, turns⟩⟩ := safe.step step
  · rw [same, isDirect] at isRemote
    exact nomatch isRemote
  · cases event with
    | routed body now destination =>
      have turned : crew.world.breaker.choose deps body now = _ := turns
      have same := choose_mode deps crew.world.breaker body now
      rw [turned, isRemote, isDirect] at same
      exact nomatch same
    | toRemote body =>
      rw [show next.world.breaker = _ from turns, isDirect] at isRemote
      exact nomatch isRemote
    | toDirect body =>
      rw [show next.world.breaker = _ from turns, isDirect] at isRemote
      exact nomatch isRemote
    | ended isProbe how =>
      obtain ⟨now, later, turned⟩ := turns
      rw [turned] at isRemote
      obtain ⟨rfl, rfl⟩ := ended_mode isDirect isRemote
      refine ⟨thread, ?_, congrArg World.trace after⟩
      obtain ⟨body, now, destination, isProbe, was⟩ := life.before_ended
      unfold ProbeInFlight
      rw [was]
      simpa [probing, Event.startsProbe, Event.endsRemote] using isProbe

/-- For every number of requests and every order of their steps: what a request hands on, who
probes, and how the breaker turns. -/
theorem localGateway_breaker (reaches : Reaches deps (opening runtime deps requests start) crew) :
    -- A failed remote attempt is replayed only with a body that can be, and a stream is sent once.
    (∀ thread, ReplaysFailures (eventsOf thread crew.world) ∧
      HandsOnce (eventsOf thread crew.world)) ∧
    -- There is one probe at most, and the breaker does not wait for one that has ended.
    (∀ first second, ProbeInFlight first crew.world → ProbeInFlight second crew.world →
      first = second) ∧
    (crew.world.breaker.probing = true → ∃ thread, ProbeInFlight thread crew.world ∧
      ¬(crew.running thread).HasEnded) ∧
    ∀ next, Step deps crew next →
      -- Only the probe leaves direct mode.
      (crew.world.breaker.mode = .direct → next.world.breaker.mode = .remote →
        ∃ thread, ProbeInFlight thread crew.world ∧
          next.world.trace = (thread, .ended true .answered) :: crew.world.trace) ∧
      -- In direct mode the failure of another request changes nothing.
      (∀ thread reason, crew.world.breaker.mode = .direct →
        next.world.trace = (thread, .ended false (.failed reason)) :: crew.world.trace →
          next.world.breaker = crew.world.breaker) ∧
      -- However a probe ends, the next one is possible.
      (∀ thread how, next.world.trace = (thread, .ended true how) :: crew.world.trace →
        next.world.breaker.probing = false) ∧
      -- When all routed requests have completed, the first one that can be replayed is the probe.
      ∀ thread body now destination,
        next.world.trace = (thread, .routed body now destination) :: crew.world.trace →
        deps.base ≠ "" → crew.world.breaker.mode = .direct →
        (∀ other, eventsOf other crew.world ≠ [] → (crew.running other).HasEnded) →
        crew.world.breaker.probeAt ≤ now → body.isStream = false → destination = .probe := by
  obtain ⟨sound, safe⟩ := reaches_sound reaches
  have waits : crew.world.breaker.probing = true → ∃ thread, ProbeInFlight thread crew.world ∧
      ¬(crew.running thread).HasEnded := fun isProbing => by
    obtain ⟨thread, flies⟩ := sound.known.mp isProbing
    refine ⟨thread, flies, fun ended => ?_⟩
    obtain ⟨_, finished⟩ := Crew.Secure.ended safe ended
    exact finished flies
  refine ⟨fun thread => ⟨(sound.lives thread).replaysFailures, (sound.lives thread).handsOnce⟩,
    sound.alone, waits, fun next step => ⟨safe.leavesDirect step, ?_, ?_, ?_⟩⟩
  · intro thread reason isDirect records
    obtain ⟨now, later, turned⟩ := (safe.turns step records).2
    rw [turned]
    simp [Breaker.ended, Breaker.remoteFailed, isDirect]
  · intro thread how records
    obtain ⟨now, later, turned⟩ := (safe.turns step records).2
    rw [turned, ended_probing, Bool.not_true, Bool.and_false]
  · intro thread body now destination records configured isDirect completed due replayable
    have turned : crew.world.breaker.choose deps body now = _ := (safe.turns step records).2
    have free : crew.world.breaker.probing = false := by
      by_contra isProbing
      rw [Bool.not_eq_false] at isProbing
      obtain ⟨other, flies, runs⟩ := waits isProbing
      refine runs (completed other fun none => ?_)
      rw [ProbeInFlight, none] at flies
      exact Bool.false_ne_true flies
    have chosen : (crew.world.breaker.choose deps body now).1 = .probe := by
      simp [Breaker.choose, configured, isDirect, replayable, due, free]
    rwa [turned] at chosen

end Replies

end Guarantees

/-! ### A closed cluster -/

def plainRuntime : LocalRuntime Unit where
  parse := fun _ => none
  toLowerCase := id
  number := fun _ => none
  dateParse := fun _ => none
  requestModel := fun _ => none
  nativeLimitResponse := fun _ _ _ _ => none
  sha256 := fun _ => []

def cluster : LocalGatewayDeps := ⟨"https://cluster", none, none⟩

def keyed (_ : Bool) : Request := ⟨⟨"gw", "/claude", ""⟩, [("x-api-key", "key")]⟩

/-- The remote refuses the connection; the body is this one, and so is the time. -/
def refused (body : Body) (now : ℚ) : Choice where
  hosts := ["gw"]
  token := some "key"
  body := some body
  aborted := false
  now := now
  later := now
  remote := .error ⟨false, false, some "ECONNREFUSED", ""⟩
  peeked := none
  members := none
  credential := .error .other
  upstream := none

/-- The other request is the only probe in flight when its body can be replayed. -/
theorem localGateway_breaker_probe :
    ∃ crew : Requests Bool, Reaches cluster (opening plainRuntime cluster keyed 0) crew ∧
      ProbeInFlight true crew.world ∧ ∀ other, ProbeInFlight other crew.world → other = true := by
  have follows : ((opening plainRuntime cluster keyed 0).follow (answers cluster)
      (List.replicate 7 (false, refused .none 0) ++
        List.replicate 4 (true, refused .none 30000))).map
      (fun crew => probing (eventsOf true crew.world)) = some true := by
    decide +kernel
  obtain ⟨crew, followed, flies⟩ := Option.map_eq_some_iff.mp follows
  have reaches : Reaches cluster (opening plainRuntime cluster keyed 0) crew :=
    Crew.reaches_of_follow followed
  exact ⟨crew, reaches, flies, fun other otherFlies =>
    (localGateway_breaker reaches).2.1 other true otherFlies flies⟩

/-- One request opens the breaker and is answered, and another one is about to be routed. -/
def openedThenAsked : List (Bool × Choice) :=
  List.replicate 7 (false, refused .none 0) ++ List.replicate 3 (true, refused .stream 30000)

def opened : Breaker := ⟨.direct, 0, 30000, false⟩

/-- What has happened once the other request was routed. -/
def traceAfter (crew : Requests Bool) : List (Bool × Event) :=
  match crew.turn (answers cluster) true (refused .stream 30000) with
  | some next => next.world.trace
  | none => []

def openedTrace : List (Bool × Event) :=
  [(false, .ended false (.failed "unreachable")), (false, .toRemote .none),
    (false, .routed .none 0 .remote)]

/-- The only routed request has completed in direct mode, and the first request at the time of the
probe is a stream: it goes to the remote, and is not the probe. -/
theorem firstRequest_notProbe :
    ∃ crew next : Requests Bool, Reaches cluster (opening plainRuntime cluster keyed 0) crew ∧
      Step cluster crew next ∧ cluster.base ≠ "" ∧ crew.world.breaker.mode = .direct ∧
      (∀ other, eventsOf other crew.world ≠ [] → (crew.running other).HasEnded) ∧
      crew.world.breaker.probeAt ≤ 30000 ∧
      next.world.trace = (true, .routed .stream 30000 .remote) :: crew.world.trace := by
  have follows : ((opening plainRuntime cluster keyed 0).follow (answers cluster)
      openedThenAsked).map (fun crew => (crew.world.breaker, crew.world.trace,
        decide (crew.running false).HasEnded, traceAfter crew)) =
      some (opened, openedTrace, true, (true, .routed .stream 30000 .remote) :: openedTrace) := by
    decide +kernel
  obtain ⟨crew, followed, seen⟩ := Option.map_eq_some_iff.mp follows
  simp only [Prod.mk.injEq] at seen
  obtain ⟨isOpened, trace, ended, nextTrace⟩ := seen
  unfold traceAfter at nextTrace
  split at nextTrace
  case h_2 => cases nextTrace
  rename_i next turned
  refine ⟨crew, next, Crew.reaches_of_follow followed, Crew.step_of_turn turned, by decide +kernel,
    congrArg Breaker.mode isOpened, fun other begun => ?_, ?_, ?_⟩
  · cases other with
    | false => exact of_decide_eq_true ended
    | true =>
      unfold eventsOf at begun
      rw [trace] at begun
      exact absurd (by decide +kernel) begun
  · rw [isOpened]
    exact le_rfl
  · rw [nextTrace, trace]

end AiSwitcher.Gateway.Local
