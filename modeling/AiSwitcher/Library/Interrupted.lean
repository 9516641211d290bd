/-
This file develops programs that act on a world that may fail them and that may be
cut off between any two of their actions. A program is the tree of its actions; what
an action may answer and what then becomes of the world is a relation, so a failing
store, an arbitrary clock and a write that fails halfway are all just answers.

Reasoning is by `Program.safe`: every action the program can take keeps a guarantee
about the world, and when the program ends its postcondition holds. By
`Program.Reaches.safe` the guarantee then relates the worlds before and after a call
wherever the call is cut off.
-/

import Mathlib.Logic.Relation

namespace Interrupted

/-! ### Programs -/

/-- A program over the actions of a signature; every action has its own type of answers. -/
inductive Program (Action : Type → Type) (Error Result : Type) : Type 1 where
  | done (result : Result)
  | fail (error : Error)
  | act {Answer : Type} (action : Action Answer) (next : Answer → Program Action Error Result)

namespace Program

variable {Action : Type → Type} {Error First Second Result : Type}

/-- Go on with a result or an error. -/
def ofExcept : Except Error Result → Program Action Error Result
  | .ok result => .done result
  | .error error => .fail error

/-- Take one action and return its answer. -/
def perform {Answer : Type} (action : Action Answer) : Program Action Error Answer :=
  .act action .done

/-- Take one action that may report an error, which ends the program. -/
def attempt (action : Action (Except Error Result)) : Program Action Error Result :=
  .act action ofExcept

/-- Run a program and go on with its outcome, whichever it is. -/
def andThen (program : Program Action Error First)
    (next : Except Error First → Program Action Error Second) : Program Action Error Second :=
  match program with
  | .done result => next (.ok result)
  | .fail error => next (.error error)
  | .act action rest => .act action fun answer => (rest answer).andThen next

/-- Sequencing: an error ends the program. -/
def bind (program : Program Action Error First) (next : First → Program Action Error Second) :
    Program Action Error Second :=
  match program with
  | .done result => next result
  | .fail error => .fail error
  | .act action rest => .act action fun answer => (rest answer).bind next

instance : Monad (Program Action Error) where
  pure := .done
  bind := .bind

/-- Repeat a body until it gives a result, for a number of rounds at most; `none` if these do not
suffice. -/
def iterate {State : Type} (body : State → Program Action Error (State ⊕ Result)) :
    Nat → State → Program Action Error (Option Result)
  | 0, _ => .done none
  | rounds + 1, state => do
      match ← body state with
      | .inl next => iterate body rounds next
      | .inr result => return some result

/-- The outcome of a program as its result. -/
def outcome (program : Program Action Error Result) :
    Program Action Error (Except Error Result) :=
  program.andThen .done

end Program

/-! ### Calls that may be cut off -/

/-- What the world may answer to an action, and what becomes of it. -/
abbrev Behaviour (Action : Type → Type) (World : Type) : Type 1 :=
  (Answer : Type) → Action Answer → World → Answer → World → Prop

variable {Action : Type → Type} {World Error First Result : Type}

/-- From a world a program reaches another one, with its outcome or cut off before its next
action. -/
inductive Program.Reaches (behaviour : Behaviour Action World) :
    Program Action Error Result → World → Option (Except Error Result) → World → Prop
  | cutOff (program world) : Reaches behaviour program world none world
  | done (result world) : Reaches behaviour (.done result) world (some (.ok result)) world
  | fail (error world) : Reaches behaviour (.fail error) world (some (.error error)) world
  | act {Answer : Type} {action : Action Answer} {next answer outcome} {before between after : World}
      (answers : behaviour Answer action before answer between)
      (rest : Reaches behaviour (next answer) between outcome after) :
      Reaches behaviour (.act action next) before outcome after

namespace Program

variable {behaviour : Behaviour Action World} {before after : World}

/-- A run in one world is one in a world that may answer more. -/
theorem Reaches.mono_behaviour {wider : Behaviour Action World}
    (implies : ∀ Answer action before answer after, behaviour Answer action before answer after →
      wider Answer action before answer after) {program : Program Action Error Result}
    {outcome : Option (Except Error Result)} (reaches : program.Reaches behaviour before outcome after) :
    program.Reaches wider before outcome after := by
  induction reaches with
  | cutOff program world => exact .cutOff program world
  | done result world => exact .done result world
  | fail error world => exact .fail error world
  | act answers rest inductionHypothesis =>
    exact .act (implies _ _ _ _ _ answers) inductionHypothesis

/-- A sequence was cut off in its first part, failed there, or has gone on from its result. -/
theorem Reaches.of_bind {next : First → Program Action Error Result}
    {outcome : Option (Except Error Result)} (program : Program Action Error First) :
    ∀ {before : World}, (program >>= next).Reaches behaviour before outcome after →
      (outcome = none ∧ program.Reaches behaviour before none after) ∨
      (∃ error, outcome = some (.error error) ∧
        program.Reaches behaviour before (some (.error error)) after) ∨
      ∃ first between, program.Reaches behaviour before (some (.ok first)) between ∧
        (next first).Reaches behaviour between outcome after := by
  induction program with
  | done first => exact fun reaches => .inr (.inr ⟨first, _, .done first _, reaches⟩)
  | fail error =>
    intro before reaches
    cases reaches with
    | cutOff => exact .inl ⟨rfl, .cutOff _ _⟩
    | fail => exact .inr (.inl ⟨error, rfl, .fail error _⟩)
  | act action rest inductionHypothesis =>
    intro before reaches
    cases reaches with
    | cutOff => exact .inl ⟨rfl, .cutOff _ _⟩
    | act answers goesOn =>
      obtain ⟨cut, reached⟩ | ⟨error, failed, reached⟩ | ⟨first, between, reached, goesOn⟩ :=
        inductionHypothesis _ goesOn
      · exact .inl ⟨cut, .act answers reached⟩
      · exact .inr (.inl ⟨error, failed, .act answers reached⟩)
      · exact .inr (.inr ⟨first, between, .act answers reached, goesOn⟩)

/-- An action that may fail was cut off before, or has answered. -/
theorem Reaches.of_attempt {action : Action (Except Error Result)}
    {outcome : Option (Except Error Result)}
    (reaches : (attempt action).Reaches behaviour before outcome after) :
    (outcome = none ∧ after = before) ∨
      ∃ answer, behaviour _ action before answer after ∧
        (outcome = none ∨ outcome = some answer) := by
  cases reaches with
  | cutOff => exact .inl ⟨rfl, rfl⟩
  | act answers rest =>
    rename_i between answer
    cases answer with
    | ok result =>
      cases rest with
      | cutOff => exact .inr ⟨_, answers, .inl rfl⟩
      | done => exact .inr ⟨_, answers, .inr rfl⟩
    | error error =>
      cases rest with
      | cutOff => exact .inr ⟨_, answers, .inl rfl⟩
      | fail => exact .inr ⟨_, answers, .inr rfl⟩

theorem Reaches.of_done {result : Result} {outcome : Option (Except Error Result)}
    (reaches : (Program.done result : Program Action Error Result).Reaches behaviour before outcome after) :
    after = before ∧ (outcome = none ∨ outcome = some (.ok result)) := by
  cases reaches with
  | cutOff => exact ⟨rfl, .inl rfl⟩
  | done => exact ⟨rfl, .inr rfl⟩

theorem Reaches.of_fail {error : Error} {outcome : Option (Except Error Result)}
    (reaches : (Program.fail error : Program Action Error Result).Reaches behaviour before outcome after) :
    after = before ∧ (outcome = none ∨ outcome = some (.error error)) := by
  cases reaches with
  | cutOff => exact ⟨rfl, .inl rfl⟩
  | fail => exact ⟨rfl, .inr rfl⟩

theorem Reaches.of_ofExcept {answer : Except Error Result} {outcome : Option (Except Error Result)}
    (reaches : (ofExcept answer : Program Action Error Result).Reaches behaviour before outcome
      after) :
    after = before ∧ (outcome = none ∨ outcome = some answer) := by
  cases answer with
  | ok result => exact reaches.of_done
  | error error => exact reaches.of_fail

/-- An action that may fail in front of a program: it was cut off, has failed, or has given the
program its result. -/
theorem Reaches.of_attempt_bind {action : Action (Except Error First)}
    {next : First → Program Action Error Result} {outcome : Option (Except Error Result)}
    (reaches : (attempt action >>= next).Reaches behaviour before outcome after) :
    (outcome = none ∧ after = before) ∨
      ∃ answer between, behaviour _ action before answer between ∧
        ((after = between ∧ ∀ result, outcome ≠ some (.ok result)) ∨
          ∃ first, answer = .ok first ∧ (next first).Reaches behaviour between outcome after) := by
  obtain ⟨cut, reached⟩ | ⟨error, failed, reached⟩ | ⟨first, between, reached, goesOn⟩ :=
    Reaches.of_bind _ reaches
  · obtain ⟨-, same⟩ | ⟨answer, answers, -⟩ := reached.of_attempt
    · exact .inl ⟨cut, same⟩
    · exact .inr ⟨answer, after, answers, .inl ⟨rfl, fun result ok => by rw [cut] at ok; cases ok⟩⟩
  · obtain ⟨cut, -⟩ | ⟨answer, answers, -⟩ := reached.of_attempt
    · cases cut
    · exact .inr ⟨answer, after, answers,
        .inl ⟨rfl, fun result ok => by rw [failed] at ok; cases ok⟩⟩
  · obtain ⟨cut, -⟩ | ⟨answer, answers, cut | answered⟩ := reached.of_attempt
    · cases cut
    · cases cut
    · exact .inr ⟨answer, between, answers, .inr ⟨first, (Option.some.inj answered).symm, goesOn⟩⟩

/-- The program leaves the world alone, and its results are as said. -/
def Reads (behaviour : Behaviour Action World) (program : Program Action Error Result)
    (world : World) (post : Result → Prop) : Prop :=
  ∀ outcome after, program.Reaches behaviour world outcome after →
    after = world ∧ ∀ result, outcome = some (.ok result) → post result

section Reading

variable {world : World} {post : Result → Prop}

theorem reads_mono {program : Program Action Error Result} {weaker : Result → Prop}
    (reads : Reads behaviour program world post) (implies : ∀ result, post result → weaker result) :
    Reads behaviour program world weaker :=
  fun outcome after reaches => ⟨(reads outcome after reaches).1,
    fun result ok => implies result ((reads outcome after reaches).2 result ok)⟩

theorem reads_done {result : Result} (holds : post result) :
    Reads behaviour (.done result : Program Action Error Result) world post := by
  intro outcome after reaches
  obtain ⟨same, cut | ended⟩ := reaches.of_done
  · exact ⟨same, fun _ ok => by rw [cut] at ok; cases ok⟩
  · refine ⟨same, fun other ok => ?_⟩
    rw [ended] at ok
    cases ok
    exact holds

theorem reads_fail {error : Error} :
    Reads behaviour (.fail error : Program Action Error Result) world post := by
  intro outcome after reaches
  obtain ⟨same, cut | failed⟩ := reaches.of_fail
  · exact ⟨same, fun _ ok => by rw [cut] at ok; cases ok⟩
  · exact ⟨same, fun _ ok => by rw [failed] at ok; cases ok⟩

theorem reads_ofExcept {answer : Except Error Result}
    (holds : ∀ result, answer = .ok result → post result) :
    Reads behaviour (ofExcept answer : Program Action Error Result) world post := by
  intro outcome after reaches
  obtain ⟨same, cut | ended⟩ := reaches.of_ofExcept
  · exact ⟨same, fun _ ok => by rw [cut] at ok; cases ok⟩
  · exact ⟨same, fun result ok => holds result (Option.some.inj (ended.symm.trans ok))⟩

theorem reads_attempt {action : Action (Except Error Result)}
    (reading : ∀ answer after, behaviour _ action world answer after →
      after = world ∧ ∀ result, answer = .ok result → post result) :
    Reads behaviour (attempt action) world post := by
  intro outcome after reaches
  obtain ⟨cut, same⟩ | ⟨answer, answers, cut | ended⟩ := reaches.of_attempt
  · exact ⟨same, fun _ ok => by rw [cut] at ok; cases ok⟩
  · exact ⟨(reading answer after answers).1, fun _ ok => by rw [cut] at ok; cases ok⟩
  · exact ⟨(reading answer after answers).1, fun result ok =>
      (reading answer after answers).2 result (Option.some.inj (ended.symm.trans ok))⟩

theorem reads_bind {program : Program Action Error First}
    {next : First → Program Action Error Result} {between : First → Prop}
    (first : Reads behaviour program world between)
    (second : ∀ result, between result → Reads behaviour (next result) world post) :
    Reads behaviour (program >>= next) world post := by
  intro outcome after reaches
  obtain ⟨cut, reached⟩ | ⟨error, failed, reached⟩ | ⟨result, between, reached, goesOn⟩ :=
    Reaches.of_bind _ reaches
  · exact ⟨(first _ _ reached).1, fun _ ok => by rw [cut] at ok; cases ok⟩
  · exact ⟨(first _ _ reached).1, fun _ ok => by rw [failed] at ok; cases ok⟩
  · obtain ⟨rfl, holds⟩ := first _ _ reached
    exact second result (holds result rfl) _ _ goesOn

theorem reads_perform {Answer : Type} {action : Action Answer} {post : Answer → Prop}
    (reading : ∀ answer after, behaviour _ action world answer after → after = world ∧ post answer) :
    Reads behaviour (perform action : Program Action Error Answer) world post := by
  intro outcome after reaches
  cases reaches with
  | cutOff => exact ⟨rfl, fun _ ok => nomatch ok⟩
  | act answers rest =>
    obtain ⟨rfl, holds⟩ := reading _ _ answers
    exact reads_done holds _ _ rest

theorem reads_andThen {program : Program Action Error First}
    {next : Except Error First → Program Action Error Result}
    (first : Reads behaviour program world fun _ => True)
    (second : ∀ outcome, Reads behaviour (next outcome) world post) :
    Reads behaviour (program.andThen next) world post := by
  induction program with
  | done result => exact second _
  | fail error => exact second _
  | act action rest inductionHypothesis =>
    intro outcome after reaches
    cases reaches with
    | cutOff => exact ⟨rfl, fun _ ok => nomatch ok⟩
    | act answers goesOn =>
      obtain ⟨rfl, -⟩ := first none _ (.act answers (.cutOff _ _))
      exact inductionHypothesis _
        (fun outcome after reaches => first outcome after (.act answers reaches)) _ _ goesOn

/-- Going on from a program that only reads. -/
theorem Reaches.of_reads_bind {program : Program Action Error First}
    {next : First → Program Action Error Result} {between : First → Prop}
    {outcome : Option (Except Error Result)} (first : Reads behaviour program before between)
    (reaches : (program >>= next).Reaches behaviour before outcome after) :
    (after = before ∧ ∀ result, outcome ≠ some (.ok result)) ∨
      ∃ result, between result ∧ (next result).Reaches behaviour before outcome after := by
  obtain ⟨cut, reached⟩ | ⟨error, failed, reached⟩ | ⟨result, world, reached, goesOn⟩ :=
    Reaches.of_bind _ reaches
  · exact .inl ⟨(first _ _ reached).1, fun _ ok => by rw [cut] at ok; cases ok⟩
  · exact .inl ⟨(first _ _ reached).1, fun _ ok => by rw [failed] at ok; cases ok⟩
  · obtain ⟨rfl, holds⟩ := first _ _ reached
    exact .inr ⟨result, holds result rfl, goesOn⟩

end Reading

/-! ### Writing programs -/

/-- A write that was done, whatever it then reported, or that was not and has failed. -/
def Writes {Answer : Type} (before written : World) (success : Answer)
    (answer : Except Error Answer) (after : World) : Prop :=
  (after = written ∧ ∀ value, answer = .ok value → value = success) ∨
    (after = before ∧ answer ≠ .ok success)

/-- Going on from a write. -/
theorem Reaches.of_write_bind {action : Action (Except Error Unit)}
    {next : Unit → Program Action Error Result} {outcome : Option (Except Error Result)}
    (written : World) (reaches : (attempt action >>= next).Reaches behaviour before outcome after)
    (writes : ∀ answer between, behaviour _ action before answer between →
      Writes before written () answer between) :
    ((after = before ∨ after = written) ∧ ∀ result, outcome ≠ some (.ok result)) ∨
      (next ()).Reaches behaviour written outcome after := by
  obtain ⟨cut, same⟩ | ⟨answer, between, answers, goesOn⟩ := reaches.of_attempt_bind
  · exact .inl ⟨.inl same, fun _ ok => by rw [cut] at ok; cases ok⟩
  have wrote := writes answer between answers
  obtain ⟨same, none⟩ | ⟨value, answered, rest⟩ := goesOn
  · rw [same]
    exact .inl ⟨wrote.elim (fun done => .inr done.1) fun notDone => .inl notDone.1, none⟩
  · obtain ⟨done, -⟩ | ⟨-, failed⟩ := wrote
    · rw [done] at rest
      exact .inr rest
    · exact absurd answered failed

end Program

/-! ### Safety -/

section Safety

variable (behaviour : Behaviour Action World) (guarantee : World → World → Prop)

/-- Whatever is answered, every action keeps the guarantee and the program ends in `post`. -/
def Program.safe (post : Except Error Result → World → Prop) :
    Program Action Error Result → World → Prop
  | .done result, world => post (.ok result) world
  | .fail error, world => post (.error error) world
  | @Program.act _ _ _ Answer action next, world => ∀ answer after,
      behaviour Answer action world answer after → guarantee world after ∧ (next answer).safe post after

variable {behaviour} {guarantee} {post : Except Error Result → World → Prop}

namespace Program

/-- Wherever a safe program is cut off, it has kept the guarantee; if it ended, it ended well. -/
theorem Reaches.safe {program : Program Action Error Result} {before after : World}
    {outcome : Option (Except Error Result)} (reaches : program.Reaches behaviour before outcome after)
    (safe : program.safe behaviour guarantee post before) :
    Relation.ReflTransGen guarantee before after ∧ ∀ result, outcome = some result → post result after := by
  induction reaches with
  | cutOff program world => exact ⟨.refl, fun _ isSome => nomatch isSome⟩
  | done result world => exact ⟨.refl, fun _ isSome => Option.some.inj isSome ▸ safe⟩
  | fail error world => exact ⟨.refl, fun _ isSome => Option.some.inj isSome ▸ safe⟩
  | act answers rest inductionHypothesis =>
    obtain ⟨kept, next⟩ := safe _ _ answers
    obtain ⟨keptRest, ends⟩ := inductionHypothesis next
    exact ⟨.head kept keptRest, ends⟩

theorem safe_mono {weaker : Except Error Result → World → Prop}
    (implies : ∀ outcome world, post outcome world → weaker outcome world)
    (program : Program Action Error Result) :
    ∀ world, program.safe behaviour guarantee post world →
      program.safe behaviour guarantee weaker world := by
  induction program with
  | done result => exact fun world => implies _ world
  | fail error => exact fun world => implies _ world
  | act action next inductionHypothesis =>
    intro world safe answer after answers
    exact ⟨(safe answer after answers).1, inductionHypothesis answer after (safe answer after answers).2⟩

/-- The rule for going on with either outcome. -/
theorem safe_andThen {next : Except Error First → Program Action Error Result}
    (program : Program Action Error First) :
    ∀ world, program.safe behaviour guarantee
        (fun outcome => (next outcome).safe behaviour guarantee post) world →
      (program.andThen next).safe behaviour guarantee post world := by
  induction program with
  | done result => exact fun _ safe => safe
  | fail error => exact fun _ safe => safe
  | act action rest inductionHypothesis =>
    intro world safe answer after answers
    exact ⟨(safe answer after answers).1, inductionHypothesis answer after (safe answer after answers).2⟩

/-- What a program that ends well goes on with, and that an error is passed on. -/
def Chain (next : First → Program Action Error Result) (behaviour : Behaviour Action World)
    (guarantee : World → World → Prop) (post : Except Error Result → World → Prop) :
    Except Error First → World → Prop
  | .ok result => (next result).safe behaviour guarantee post
  | .error error => post (.error error)

/-- The rule of sequencing. -/
theorem safe_bind {next : First → Program Action Error Result}
    (program : Program Action Error First) :
    ∀ world, program.safe behaviour guarantee (Chain next behaviour guarantee post) world →
      (program >>= next).safe behaviour guarantee post world := by
  induction program with
  | done result => exact fun _ safe => safe
  | fail error => exact fun _ safe => safe
  | act action rest inductionHypothesis =>
    intro world safe answer after answers
    exact ⟨(safe answer after answers).1, inductionHypothesis answer after (safe answer after answers).2⟩

theorem safe_perform_bind {Answer : Type} {action : Action Answer}
    {next : Answer → Program Action Error Result} {world : World}
    (safe : ∀ answer after, behaviour Answer action world answer after →
      guarantee world after ∧ (next answer).safe behaviour guarantee post after) :
    (perform action >>= next).safe behaviour guarantee post world := safe

theorem safe_ofExcept {outcome : Except Error Result} {world : World} (ends : post outcome world) :
    (ofExcept outcome : Program Action Error Result).safe behaviour guarantee post world := by
  cases outcome with
  | ok result => exact ends
  | error error => exact ends

/-- Going on after a check of values that takes no action. -/
theorem safe_ofExcept_bind {outcome : Except Error First}
    {next : First → Program Action Error Result} {world : World}
    (passed : ∀ result, outcome = .ok result → (next result).safe behaviour guarantee post world)
    (failed : ∀ error, outcome = .error error → post (.error error) world) :
    ((ofExcept outcome : Program Action Error First) >>= next).safe behaviour guarantee post world := by
  cases outcome with
  | ok result => exact passed result rfl
  | error error => exact failed error rfl

/-- Going on after an action that may fail: its result goes on, its error ends the program. -/
theorem safe_attempt_bind {action : Action (Except Error First)}
    {next : First → Program Action Error Result} {world : World}
    (passed : ∀ result after, behaviour _ action world (.ok result) after →
      guarantee world after ∧ (next result).safe behaviour guarantee post after)
    (failed : ∀ error after, behaviour _ action world (.error error) after →
      guarantee world after ∧ post (.error error) after) :
    (attempt action >>= next).safe behaviour guarantee post world := by
  intro answer after answers
  cases answer with
  | ok result => exact passed result after answers
  | error error => exact failed error after answers

/-- A program that only reads keeps any guarantee that the world need not change for. -/
theorem safe_of_reads {program : Program Action Error Result} {world : World} {holds : Result → Prop}
    (reads : Reads behaviour program world holds) (stays : guarantee world world)
    (ends : ∀ outcome, (∀ result, outcome = .ok result → holds result) → post outcome world) :
    program.safe behaviour guarantee post world := by
  induction program with
  | done result =>
    refine ends _ fun other same => ?_
    obtain rfl := Except.ok.inj same
    exact (reads _ _ (.done result world)).2 result rfl
  | fail error => exact ends _ fun result same => nomatch same
  | act action next inductionHypothesis =>
    intro answer after answers
    obtain ⟨rfl, -⟩ := reads none _ (.act answers (.cutOff _ _))
    exact ⟨stays, inductionHypothesis answer
      fun outcome after reaches => reads outcome after (.act answers reaches)⟩

/-- Going on from a program that only reads. -/
theorem safe_reads_bind {program : Program Action Error First}
    {next : First → Program Action Error Result} {world : World} {holds : First → Prop}
    (reads : Reads behaviour program world holds) (stays : guarantee world world)
    (goesOn : ∀ result, holds result → (next result).safe behaviour guarantee post world)
    (failed : ∀ error, post (.error error) world) :
    (program >>= next).safe behaviour guarantee post world := by
  refine safe_bind program world (safe_of_reads reads stays fun outcome holds => ?_)
  cases outcome with
  | ok result => exact goesOn result (holds result rfl)
  | error error => exact failed error

/-- What a round of a loop ends in: a state of the invariant with less left, or the loop's end. -/
def Round {State : Type} (invariant : State → World → Prop) (variant : State → Nat)
    (post : Except Error (Option Result) → World → Prop) (state : State) :
    Except Error (State ⊕ Result) → World → Prop
  | .ok (.inl next), after => invariant next after ∧ variant next < variant state
  | .ok (.inr result), after => post (.ok (some result)) after
  | .error error, after => post (.error error) after

/-- The rule for loops. -/
theorem safe_iterate {State : Type} {body : State → Program Action Error (State ⊕ Result)}
    {post : Except Error (Option Result) → World → Prop} {invariant : State → World → Prop}
    {variant : State → Nat}
    (round : ∀ state world, invariant state world →
      (body state).safe behaviour guarantee (Round invariant variant post state) world)
    (rounds : Nat) : ∀ state world, invariant state world → variant state < rounds →
      (iterate body rounds state).safe behaviour guarantee post world := by
  induction rounds with
  | zero => exact fun state world _ few => absurd few (Nat.not_lt_zero _)
  | succ rounds inductionHypothesis =>
    intro state world holds enough
    refine safe_bind (body state) world (safe_mono ?_ (body state) world (round state world holds))
    intro outcome after ended
    match outcome, ended with
    | .ok (.inl next), ⟨kept, less⟩ => exact inductionHypothesis next after kept (by omega)
    | .ok (.inr result), ended => exact ended
    | .error error, ended => exact ended

/-- What a round of a loop ends in that need not come closer to its end. -/
def Turn {State : Type} (invariant : State → World → Prop)
    (post : Except Error (Option Result) → World → Prop) :
    Except Error (State ⊕ Result) → World → Prop
  | .ok (.inl next), after => invariant next after
  | .ok (.inr result), after => post (.ok (some result)) after
  | .error error, after => post (.error error) after

/-- The rule for loops that may run out of rounds. -/
theorem safe_iterate_any {State : Type} {body : State → Program Action Error (State ⊕ Result)}
    {post : Except Error (Option Result) → World → Prop} {invariant : State → World → Prop}
    (round : ∀ state world, invariant state world →
      (body state).safe behaviour guarantee (Turn invariant post) world)
    (ended : ∀ state world, invariant state world → post (.ok none) world)
    (rounds : Nat) : ∀ state world, invariant state world →
      (iterate body rounds state).safe behaviour guarantee post world := by
  induction rounds with
  | zero => exact ended
  | succ rounds inductionHypothesis =>
    intro state world holds
    refine safe_bind (body state) world (safe_mono ?_ (body state) world (round state world holds))
    intro outcome after ended
    match outcome, ended with
    | .ok (.inl next), kept => exact inductionHypothesis next after kept
    | .ok (.inr result), ended => exact ended
    | .error error, ended => exact ended

/-- A guarantee may be weakened. -/
theorem safe_mono_guarantee {weaker : World → World → Prop}
    (implies : ∀ before after, guarantee before after → weaker before after)
    (program : Program Action Error Result) :
    ∀ world, program.safe behaviour guarantee post world →
      program.safe behaviour weaker post world := by
  induction program with
  | done result => exact fun _ safe => safe
  | fail error => exact fun _ safe => safe
  | act action next inductionHypothesis =>
    intro world safe answer after answers
    exact ⟨implies _ _ (safe answer after answers).1,
      inductionHypothesis answer after (safe answer after answers).2⟩

end Program

end Safety

/-! ### Running against one world -/

/-- Run a program where each action has one answer. -/
def Program.run (answer : (Answer : Type) → Action Answer → World → Answer × World) :
    Program Action Error Result → World → Except Error Result × World
  | .done result, world => (.ok result, world)
  | .fail error, world => (.error error, world)
  | @Program.act _ _ _ Answer action next, world =>
      (next (answer Answer action world).1).run answer (answer Answer action world).2

/-- Such a run is one of the runs that the behaviour allows, if its answers are allowed in the
worlds of an invariant that they keep. -/
theorem Program.reaches_run_of {behaviour : Behaviour Action World}
    {answer : (Answer : Type) → Action Answer → World → Answer × World} {invariant : World → Prop}
    (allowed : ∀ Answer action world, invariant world →
      behaviour Answer action world (answer Answer action world).1 (answer Answer action world).2 ∧
        invariant (answer Answer action world).2)
    (program : Program Action Error Result) :
    ∀ world, invariant world → program.Reaches behaviour world (some (program.run answer world).1)
      (program.run answer world).2 := by
  induction program with
  | done result => exact fun world _ => .done result world
  | fail error => exact fun world _ => .fail error world
  | act action next inductionHypothesis =>
    intro world holds
    obtain ⟨answers, kept⟩ := allowed _ action world holds
    exact .act answers (inductionHypothesis _ _ kept)

theorem Program.reaches_run {behaviour : Behaviour Action World}
    {answer : (Answer : Type) → Action Answer → World → Answer × World}
    (allowed : ∀ Answer action world,
      behaviour Answer action world (answer Answer action world).1 (answer Answer action world).2)
    (program : Program Action Error Result) (world : World) :
    program.Reaches behaviour world (some (program.run answer world).1)
      (program.run answer world).2 := by
  have kept : ∀ Answer action world, (fun _ : World => True) world →
      behaviour Answer action world (answer Answer action world).1
        (answer Answer action world).2 ∧ (fun _ : World => True) (answer Answer action world).2 :=
    fun Answer action world _ => ⟨allowed Answer action world, trivial⟩
  exact program.reaches_run_of kept world trivial

end Interrupted
