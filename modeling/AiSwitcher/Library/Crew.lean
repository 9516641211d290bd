/-
This file develops any number of programs that run interleaved on one world. One step
is one action of one program, so between any two actions of a program every other one
may act, and the world may move on by itself.

Reasoning is by rely and guarantee: every action of a program keeps the guarantee of its
thread, and what a program relies on between its actions is the guarantees of the others.
`Program.secure` says this of one program, and by `Crew.Reaches.secure` a crew of such
programs keeps all guarantees in every interleaving.
-/

import Mathlib.Logic.Function.Basic
import AiSwitcher.Library.Interrupted

namespace Interrupted

variable {Action : Type → Type} {World Thread Choice Error First Result : Type}

/-! ### Crews -/

/-- A world, and the program that each thread has left. -/
structure Crew (Action : Type → Type) (World Thread Error Result : Type) where
  world : World
  running : Thread → Program Action Error Result

section Running

variable [DecidableEq Thread] (behaviour : Thread → Behaviour Action World)
  (environment : World → World → Prop)

/-- One action of one thread, or a move of the environment. -/
inductive Crew.Step (crew : Crew Action World Thread Error Result) :
    Crew Action World Thread Error Result → Prop
  | act {Answer : Type} {action : Action Answer} {next answer} {after : World} (thread : Thread)
      (running : crew.running thread = .act action next)
      (answers : behaviour thread Answer action crew.world answer after) :
      Step crew ⟨after, Function.update crew.running thread (next answer)⟩
  | drift {after : World} (moves : environment crew.world after) :
      Step crew ⟨after, crew.running⟩

def Crew.Reaches : Crew Action World Thread Error Result →
    Crew Action World Thread Error Result → Prop :=
  Relation.ReflTransGen (Crew.Step behaviour environment)

variable {behaviour} {environment}

/-- A run is one of a crew that may do more. -/
theorem Crew.Reaches.mono {wider : Thread → Behaviour Action World}
    (implies : ∀ thread Answer action before answer after,
      behaviour thread Answer action before answer after →
        wider thread Answer action before answer after)
    {before after : Crew Action World Thread Error Result}
    (reaches : Crew.Reaches behaviour environment before after) :
    Crew.Reaches wider environment before after := by
  refine Relation.ReflTransGen.mono ?_ _ _ reaches
  intro first second step
  cases step with
  | act thread running answers => exact .act thread running (implies _ _ _ _ _ _ answers)
  | drift moves => exact .drift moves

end Running

/-! ### Rely and guarantee -/

section Security

variable (guarantee : Thread → World → World → Prop) (environment : World → World → Prop)

/-- The program has no action left. -/
def Program.HasEnded : Program Action Error Result → Prop
  | .done _ | .fail _ => True
  | .act .. => False

instance (program : Program Action Error Result) : Decidable program.HasEnded :=
  match program with
  | .done _ | .fail _ => .isTrue trivial
  | .act .. => .isFalse id

/-- A step of the environment or of another thread. -/
def Others (thread : Thread) (before after : World) : Prop :=
  environment before after ∨ ∃ other, other ≠ thread ∧ guarantee other before after

/-- What a thread relies on between two of its actions. -/
def Rely (thread : Thread) : World → World → Prop :=
  Relation.ReflTransGen (Others guarantee environment thread)

/-- A step of the environment or of any thread. -/
def Anyone (before after : World) : Prop :=
  environment before after ∨ ∃ thread, guarantee thread before after

/-- Whatever the others do meanwhile, every action of the program keeps the guarantee of its
thread, and the program ends in `post`. -/
def Program.secure (behaviour : Thread → Behaviour Action World) (thread : Thread)
    (post : Except Error Result → World → Prop) : Program Action Error Result → World → Prop
  | .done result, world => ∀ later, Rely guarantee environment thread world later →
      post (.ok result) later
  | .fail error, world => ∀ later, Rely guarantee environment thread world later →
      post (.error error) later
  | @Program.act _ _ _ Answer action next, world =>
      ∀ later, Rely guarantee environment thread world later →
        ∀ answer after, behaviour thread Answer action later answer after →
          guarantee thread later after ∧ (next answer).secure behaviour thread post after

variable {guarantee} {environment} {behaviour : Thread → Behaviour Action World} {thread : Thread}
  {post : Except Error Result → World → Prop} {world : World}

/-- An assertion that no step of the others ends. -/
def Stable (guarantee : Thread → World → World → Prop) (environment : World → World → Prop)
    (thread : Thread) (assertion : World → Prop) : Prop :=
  ∀ before after, Others guarantee environment thread before after → assertion before →
    assertion after

theorem Stable.relied {assertion : World → Prop}
    (stable : Stable guarantee environment thread assertion) {before after : World}
    (relies : Rely guarantee environment thread before after) (holds : assertion before) :
    assertion after := by
  induction relies with
  | refl => exact holds
  | tail _ last inductionHypothesis => exact stable _ _ last inductionHypothesis

theorem Stable.and {first second : World → Prop}
    (left : Stable guarantee environment thread first)
    (right : Stable guarantee environment thread second) :
    Stable guarantee environment thread fun world => first world ∧ second world :=
  fun before after others holds =>
    ⟨left before after others holds.1, right before after others holds.2⟩

namespace Program

/-- What the others do leaves a secure program secure. -/
theorem secure_relied {program : Program Action Error Result} {later : World}
    (relies : Rely guarantee environment thread world later)
    (secure : program.secure guarantee environment behaviour thread post world) :
    program.secure guarantee environment behaviour thread post later := by
  cases program with
  | done result => exact fun latest more => secure latest (relies.trans more)
  | fail error => exact fun latest more => secure latest (relies.trans more)
  | act action next => exact fun latest more => secure latest (relies.trans more)

theorem secure_mono {weaker : Except Error Result → World → Prop}
    (implies : ∀ outcome world, post outcome world → weaker outcome world)
    (program : Program Action Error Result) :
    ∀ world, program.secure guarantee environment behaviour thread post world →
      program.secure guarantee environment behaviour thread weaker world := by
  induction program with
  | done result => exact fun world secure later relies => implies _ _ (secure later relies)
  | fail error => exact fun world secure later relies => implies _ _ (secure later relies)
  | act action next inductionHypothesis =>
    intro world secure later relies answer after answers
    obtain ⟨kept, goesOn⟩ := secure later relies answer after answers
    exact ⟨kept, inductionHypothesis answer after goesOn⟩

/-- The rule for going on with either outcome. -/
theorem secure_andThen {next : Except Error First → Program Action Error Result}
    (program : Program Action Error First) :
    ∀ world, program.secure guarantee environment behaviour thread
        (fun outcome => (next outcome).secure guarantee environment behaviour thread post) world →
      (program.andThen next).secure guarantee environment behaviour thread post world := by
  induction program with
  | done result => exact fun world secure => secure world .refl
  | fail error => exact fun world secure => secure world .refl
  | act action rest inductionHypothesis =>
    intro world secure later relies answer after answers
    obtain ⟨kept, goesOn⟩ := secure later relies answer after answers
    exact ⟨kept, inductionHypothesis answer after goesOn⟩

/-- What a program that ends well goes on with, and that an error is passed on. -/
def Continues (guarantee : Thread → World → World → Prop) (environment : World → World → Prop)
    (behaviour : Thread → Behaviour Action World) (thread : Thread)
    (next : First → Program Action Error Result) (post : Except Error Result → World → Prop) :
    Except Error First → World → Prop
  | .ok result, world => (next result).secure guarantee environment behaviour thread post world
  | .error error, world => post (.error error) world

/-- The rule of sequencing. -/
theorem secure_bind {next : First → Program Action Error Result}
    (program : Program Action Error First) :
    ∀ world, program.secure guarantee environment behaviour thread
        (Continues guarantee environment behaviour thread next post) world →
      (program >>= next).secure guarantee environment behaviour thread post world := by
  induction program with
  | done result => exact fun world secure => secure world .refl
  | fail error => exact fun world secure => secure
  | act action rest inductionHypothesis =>
    intro world secure later relies answer after answers
    obtain ⟨kept, goesOn⟩ := secure later relies answer after answers
    exact ⟨kept, inductionHypothesis answer after goesOn⟩

/-- Going on from the outcome of a program, whichever it is. -/
theorem secure_outcome_bind {next : Except Error First → Program Action Error Result}
    (program : Program Action Error First) (world : World)
    (secure : program.secure guarantee environment behaviour thread
      (fun outcome world => ∀ later, Rely guarantee environment thread world later →
        (next outcome).secure guarantee environment behaviour thread post later) world) :
    (program.outcome >>= next).secure guarantee environment behaviour thread post world :=
  secure_bind _ _ (secure_andThen program world (secure_mono (fun _ _ goesOn => goesOn) _ _ secure))

/-- Going on after an action that cannot end the program. -/
theorem secure_perform_bind {Answer : Type} {action : Action Answer}
    {next : Answer → Program Action Error Result}
    (goesOn : ∀ later, Rely guarantee environment thread world later →
      ∀ answer after, behaviour thread Answer action later answer after →
        guarantee thread later after ∧
          (next answer).secure guarantee environment behaviour thread post after) :
    (perform action >>= next).secure guarantee environment behaviour thread post world := goesOn

/-- Going on after an action that may fail: its result goes on, its error ends the program. -/
theorem secure_attempt_bind {action : Action (Except Error First)}
    {next : First → Program Action Error Result}
    (goesOn : ∀ later, Rely guarantee environment thread world later →
      ∀ answer after, behaviour thread _ action later answer after →
        guarantee thread later after ∧
          (∀ result, answer = .ok result →
            (next result).secure guarantee environment behaviour thread post after) ∧
          ∀ error, answer = .error error →
            ∀ latest, Rely guarantee environment thread after latest →
              post (.error error) latest) :
    (attempt action >>= next).secure guarantee environment behaviour thread post world := by
  intro later relies answer after answers
  obtain ⟨kept, passed, failed⟩ := goesOn later relies answer after answers
  refine ⟨kept, ?_⟩
  cases answer with
  | ok result => exact passed result rfl
  | error error => exact failed error rfl

theorem secure_ofExcept {outcome : Except Error Result}
    (ends : ∀ later, Rely guarantee environment thread world later → post outcome later) :
    (ofExcept outcome : Program Action Error Result).secure guarantee environment behaviour thread
      post world := by
  cases outcome with
  | ok result => exact ends
  | error error => exact ends

/-- Going on after a check of values that takes no action. -/
theorem secure_ofExcept_bind {outcome : Except Error First}
    {next : First → Program Action Error Result}
    (passed : ∀ result, outcome = .ok result →
      (next result).secure guarantee environment behaviour thread post world)
    (failed : ∀ error, outcome = .error error →
      ∀ later, Rely guarantee environment thread world later → post (.error error) later) :
    ((ofExcept outcome : Program Action Error First) >>= next).secure guarantee environment
      behaviour thread post world := by
  cases outcome with
  | ok result => exact passed result rfl
  | error error => exact failed error rfl

end Program

/-! ### Programs of permitted actions -/

namespace Program

/-- All actions that the program can take are permitted. -/
def Uses (permitted : (Answer : Type) → Action Answer → Prop) :
    Program Action Error Result → Prop
  | .done _ | .fail _ => True
  | @Program.act _ _ _ Answer action next =>
      permitted Answer action ∧ ∀ answer, (next answer).Uses permitted

variable {permitted : (Answer : Type) → Action Answer → Prop}

theorem uses_bind {program : Program Action Error First}
    {next : First → Program Action Error Result} (uses : program.Uses permitted)
    (rest : ∀ result, (next result).Uses permitted) : (program >>= next).Uses permitted := by
  induction program with
  | done result => exact rest result
  | fail error => trivial
  | act action goesOn inductionHypothesis =>
    exact ⟨uses.1, fun answer => inductionHypothesis answer (uses.2 answer)⟩

theorem uses_done {result : Result} :
    (.done result : Program Action Error Result).Uses permitted := trivial

theorem uses_fail {error : Error} :
    (.fail error : Program Action Error Result).Uses permitted := trivial

theorem uses_ofExcept {outcome : Except Error Result} :
    (ofExcept outcome : Program Action Error Result).Uses permitted := by
  cases outcome <;> trivial

theorem uses_perform {Answer : Type} {action : Action Answer} (allowed : permitted Answer action) :
    (perform action : Program Action Error Answer).Uses permitted :=
  ⟨allowed, fun _ => trivial⟩

theorem uses_attempt {action : Action (Except Error Result)} (allowed : permitted _ action) :
    (attempt action : Program Action Error Result).Uses permitted :=
  ⟨allowed, fun _ => uses_ofExcept⟩

theorem uses_andThen {program : Program Action Error First}
    {next : Except Error First → Program Action Error Result} (uses : program.Uses permitted)
    (rest : ∀ outcome, (next outcome).Uses permitted) : (program.andThen next).Uses permitted := by
  induction program with
  | done result => exact rest (.ok result)
  | fail error => exact rest (.error error)
  | act action goesOn inductionHypothesis =>
    exact ⟨uses.1, fun answer => inductionHypothesis answer (uses.2 answer)⟩

theorem uses_outcome {program : Program Action Error Result} (uses : program.Uses permitted) :
    program.outcome.Uses permitted :=
  uses_andThen uses fun _ => trivial

theorem uses_mono {more : (Answer : Type) → Action Answer → Prop}
    (implies : ∀ Answer action, permitted Answer action → more Answer action)
    {program : Program Action Error Result} (uses : program.Uses permitted) :
    program.Uses more := by
  induction program with
  | done result => trivial
  | fail error => trivial
  | act action next inductionHypothesis =>
    exact ⟨implies _ _ uses.1, fun answer => inductionHypothesis answer (uses.2 answer)⟩

/-- A program whose actions keep the guarantee and an assertion ends in the assertion. -/
theorem secure_of_uses {assertion : World → Prop}
    (stable : Stable guarantee environment thread assertion)
    (keeps : ∀ Answer action, permitted Answer action → ∀ world answer after, assertion world →
      behaviour thread Answer action world answer after →
        guarantee thread world after ∧ assertion after)
    {program : Program Action Error Result} (uses : program.Uses permitted) :
    ∀ {world}, assertion world → program.secure guarantee environment behaviour thread
      (fun _ => assertion) world := by
  induction program with
  | done result => exact fun holds later relies => stable.relied relies holds
  | fail error => exact fun holds later relies => stable.relied relies holds
  | act action next inductionHypothesis =>
    intro world holds later relies answer after answers
    obtain ⟨kept, still⟩ := keeps _ action uses.1 later answer after
      (stable.relied relies holds) answers
    exact ⟨kept, inductionHypothesis answer (uses.2 answer) still⟩

/-- Going on from such a program. -/
theorem secure_uses_bind {assertion : World → Prop}
    (stable : Stable guarantee environment thread assertion)
    (keeps : ∀ Answer action, permitted Answer action → ∀ world answer after, assertion world →
      behaviour thread Answer action world answer after →
        guarantee thread world after ∧ assertion after)
    {program : Program Action Error First} (uses : program.Uses permitted)
    {next : First → Program Action Error Result} (holds : assertion world)
    (goesOn : ∀ result later, assertion later →
      (next result).secure guarantee environment behaviour thread post later)
    (failed : ∀ error later, assertion later → post (.error error) later) :
    (program >>= next).secure guarantee environment behaviour thread post world := by
  refine secure_bind program world (secure_mono ?_ program world
    (secure_of_uses stable keeps uses holds))
  intro outcome later still
  cases outcome with
  | ok result => exact goesOn result later still
  | error error => exact failed error later still

end Program

section Interleaved

variable [DecidableEq Thread] {before after : Crew Action World Thread Error Result}
  {posts : Thread → Except Error Result → World → Prop}

/-- All programs of the crew are secure. -/
def Crew.Secure (guarantee : Thread → World → World → Prop) (environment : World → World → Prop)
    (behaviour : Thread → Behaviour Action World)
    (posts : Thread → Except Error Result → World → Prop)
    (crew : Crew Action World Thread Error Result) : Prop :=
  ∀ thread, (crew.running thread).secure guarantee environment behaviour thread (posts thread)
    crew.world

/-- One step of a secure crew: somebody keeps its guarantee, and the crew stays secure. -/
theorem Crew.Secure.step (secure : before.Secure guarantee environment behaviour posts)
    (step : before.Step behaviour environment after) :
    Anyone guarantee environment before.world after.world ∧
      after.Secure guarantee environment behaviour posts := by
  cases step with
  | act thread running answers =>
    have acting := secure thread
    rw [running] at acting
    obtain ⟨kept, goesOn⟩ := acting _ .refl _ _ answers
    refine ⟨.inr ⟨thread, kept⟩, fun other => ?_⟩
    by_cases same : other = thread
    · subst same
      show (Function.update before.running other _ other).secure _ _ _ _ _ _
      rw [Function.update_self]
      exact goesOn
    · show (Function.update before.running thread _ other).secure _ _ _ _ _ _
      rw [Function.update_of_ne same]
      exact Program.secure_relied
        (.single (.inr ⟨thread, fun equal => same equal.symm, kept⟩)) (secure other)
  | drift moves =>
    exact ⟨.inl moves, fun other => Program.secure_relied (.single (.inl moves)) (secure other)⟩

/-- In every interleaving a secure crew keeps its guarantees. -/
theorem Crew.Reaches.secure (reaches : Crew.Reaches behaviour environment before after)
    (secure : before.Secure guarantee environment behaviour posts) :
    Relation.ReflTransGen (Anyone guarantee environment) before.world after.world ∧
      after.Secure guarantee environment behaviour posts := by
  induction reaches with
  | refl => exact ⟨.refl, secure⟩
  | tail _ last inductionHypothesis =>
    obtain ⟨moved, between⟩ := inductionHypothesis
    obtain ⟨moves, kept⟩ := between.step last
    exact ⟨moved.tail moves, kept⟩

omit [DecidableEq Thread] in
/-- A program of a secure crew that has ended satisfies its postcondition. -/
theorem Crew.Secure.ended {crew : Crew Action World Thread Error Result}
    (secure : crew.Secure guarantee environment behaviour posts) {thread : Thread}
    (ended : (crew.running thread).HasEnded) : ∃ outcome, posts thread outcome crew.world := by
  have holds := secure thread
  cases isEnd : crew.running thread with
  | done result =>
    rw [isEnd] at holds
    exact ⟨.ok result, holds _ .refl⟩
  | fail error =>
    rw [isEnd] at holds
    exact ⟨.error error, holds _ .refl⟩
  | act action next =>
    rw [isEnd] at ended
    exact ended.elim

end Interleaved

end Security

/-! ### Running a schedule -/

section Schedules

variable [DecidableEq Thread]
  (answer : Thread → (Answer : Type) → Action Answer → Choice → World → Option (Answer × World))

/-- The behaviour in which every answer comes from a choice. -/
def Chosen (thread : Thread) : Behaviour Action World := fun Answer action before result after =>
  ∃ choice, answer thread Answer action choice before = some (result, after)

/-- Let a thread take its next action. -/
def Crew.turn (crew : Crew Action World Thread Error Result) (thread : Thread) (choice : Choice) :
    Option (Crew Action World Thread Error Result) :=
  match crew.running thread with
  | @Program.act _ _ _ Answer action next =>
      match answer thread Answer action choice crew.world with
      | some (result, after) => some ⟨after, Function.update crew.running thread (next result)⟩
      | none => none
  | _ => none

/-- Let threads act one after the other. -/
def Crew.follow (crew : Crew Action World Thread Error Result) :
    List (Thread × Choice) → Option (Crew Action World Thread Error Result)
  | [] => some crew
  | (thread, choice) :: schedule =>
      match crew.turn answer thread choice with
      | some next => next.follow schedule
      | none => none

variable {answer} {environment : World → World → Prop}
  {before after : Crew Action World Thread Error Result}

theorem Crew.step_of_turn {thread : Thread} {choice : Choice}
    (turned : before.turn answer thread choice = some after) :
    before.Step (Chosen answer) environment after := by
  unfold Crew.turn at turned
  split at turned
  · rename_i running
    split at turned
    · rename_i answered
      obtain rfl := Option.some.inj turned
      exact .act thread running ⟨choice, answered⟩
    · exact nomatch turned
  · exact nomatch turned

theorem Crew.reaches_of_follow {schedule : List (Thread × Choice)} :
    ∀ {before : Crew Action World Thread Error Result},
      before.follow answer schedule = some after →
        Crew.Reaches (Chosen answer) environment before after := by
  induction schedule with
  | nil =>
    intro before followed
    obtain rfl := Option.some.inj followed
    exact .refl
  | cons entry schedule inductionHypothesis =>
    intro before followed
    unfold Crew.follow at followed
    split at followed
    · rename_i turned
      exact .head (Crew.step_of_turn turned) (inductionHypothesis followed)
    · exact nomatch followed

end Schedules

end Interrupted
