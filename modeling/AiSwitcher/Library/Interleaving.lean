/-
This file develops programs that share files and locks and run interleaved. A
program is the tree of its actions: it reads a file, replaces a file as a whole,
takes a lock or gives up waiting for it, releases a lock, and ends with a result
or with an error. One action is one step, so between any two actions of one program
any other program may act.

Reasoning follows one program, the main one, under what the others may do to the
shared state meanwhile: `Program.wp` is the weakest condition under which the main
program ends as wanted under that interference, and `System.wp_completes` says that
this is what holds at the end of every interleaved run. What the others may do is
derived from a discipline on their text, `Program.Disciplined`: which files a
program may write given the locks it holds.
-/

import Mathlib.Logic.Function.Basic
import Mathlib.Logic.Relation

namespace Interleaving

/-! ### Programs -/

/-- A program over shared files and locks. A write and a lock may fail; the program goes on with
what happened. -/
inductive Program (File Content Lock Result : Type) where
  | done (result : Result)
  | fail (message : String)
  | read (file : File) (next : Option Content → Program File Content Lock Result)
  | write (file : File) (content : Content) (next : Bool → Program File Content Lock Result)
  | acquire (lock : Lock) (next : Bool → Program File Content Lock Result)
  | release (lock : Lock) (next : Program File Content Lock Result)

namespace Program

variable {File Content Lock First Second : Type}

/-- Go on with a result or an error. -/
def ofOutcome : Except String First → Program File Content Lock First
  | .ok result => .done result
  | .error message => .fail message

/-- Run a program and go on with its outcome, whichever it is. -/
def andThen (program : Program File Content Lock First)
    (next : Except String First → Program File Content Lock Second) :
    Program File Content Lock Second :=
  match program with
  | .done result => next (.ok result)
  | .fail message => next (.error message)
  | .read file rest => .read file fun found => (rest found).andThen next
  | .write file content rest => .write file content fun written => (rest written).andThen next
  | .acquire lock rest => .acquire lock fun held => (rest held).andThen next
  | .release lock rest => .release lock (rest.andThen next)

/-- Sequencing: an error ends the program. -/
def bind (program : Program File Content Lock First)
    (next : First → Program File Content Lock Second) : Program File Content Lock Second :=
  program.andThen fun outcome =>
    match outcome with
    | .ok result => next result
    | .error message => .fail message

instance : Monad (Program File Content Lock) where
  pure := .done
  bind := .bind

/-- Read a file; none when there is none. -/
def readFile (file : File) : Program File Content Lock (Option Content) :=
  .read file .done

/-- Replace a file, or end with an error. -/
def writeFile (file : File) (content : Content) : Program File Content Lock Unit :=
  .write file content fun written => if written then .done () else .fail "could not write"

/-- Run a program under a lock that is released however the program ends. -/
def withLock (lock : Lock) (program : Program File Content Lock First) :
    Program File Content Lock First :=
  .acquire lock fun held =>
    if held then program.andThen fun outcome => .release lock (ofOutcome outcome)
    else .fail "could not take lock"

/-- The outcome of a program that has ended. -/
def outcome? : Program File Content Lock First → Option (Except String First)
  | .done result => some (.ok result)
  | .fail message => some (.error message)
  | _ => none

end Program

/-! ### States and steps -/

/-- What is remembered of an action: who read or replaced a file, and what it held. -/
inductive Event (File Content Thread : Type) where
  | read (thread : Thread) (file : File) (found : Option Content)
  | wrote (thread : Thread) (file : File) (before : Option Content) (after : Content)
  deriving DecidableEq

/-- The shared files and locks, and the actions so far, the latest first. -/
structure State (File Content Lock Thread : Type) where
  files : File → Option Content
  holders : Lock → Option Thread
  trace : List (Event File Content Thread)

variable {File Content Lock Thread Process Result Main Other : Type}
variable [DecidableEq File] [DecidableEq Lock] [DecidableEq Thread]

namespace State

def look (state : State File Content Lock Thread) (thread : Thread) (file : File) :
    State File Content Lock Thread :=
  { state with trace := .read thread file (state.files file) :: state.trace }

def put (state : State File Content Lock Thread) (thread : Thread) (file : File)
    (content : Content) : State File Content Lock Thread where
  files := Function.update state.files file (some content)
  holders := state.holders
  trace := .wrote thread file (state.files file) content :: state.trace

def take (state : State File Content Lock Thread) (thread : Thread) (lock : Lock) :
    State File Content Lock Thread :=
  { state with holders := Function.update state.holders lock (some thread) }

/-- A lock is released only by its holder. -/
def free (state : State File Content Lock Thread) (thread : Thread) (lock : Lock) :
    State File Content Lock Thread :=
  { state with
    holders := if state.holders lock = some thread then Function.update state.holders lock none
      else state.holders }

omit [DecidableEq Lock] [DecidableEq Thread] in
@[simp] theorem files_put_same (state : State File Content Lock Thread) (thread : Thread)
    (file : File) (content : Content) :
    (state.put thread file content).files file = some content :=
  @Function.update_self File (fun _ => Option Content) _ file (some content) state.files

omit [DecidableEq Lock] [DecidableEq Thread] in
theorem files_put_of_ne (state : State File Content Lock Thread) (thread : Thread)
    {file other : File} (different : other ≠ file) (content : Content) :
    (state.put thread file content).files other = state.files other :=
  @Function.update_of_ne File (fun _ => Option Content) _ _ _ different (some content) state.files

end State

/-- One action of a program that runs as `thread`. -/
inductive Program.Step (thread : Thread) : Program File Content Lock Result →
    State File Content Lock Thread → Program File Content Lock Result →
    State File Content Lock Thread → Prop
  | read (file next state) :
      Step thread (.read file next) state (next (state.files file)) (state.look thread file)
  | write (file content next state) :
      Step thread (.write file content next) state (next true) (state.put thread file content)
  | writeFails (file content next state) :
      Step thread (.write file content next) state (next false) state
  | acquire (lock next) (state : State File Content Lock Thread)
      (free : state.holders lock = none) :
      Step thread (.acquire lock next) state (next true) (state.take thread lock)
  | timeout (lock next state) : Step thread (.acquire lock next) state (next false) state
  | release (lock next state) :
      Step thread (.release lock next) state next (state.free thread lock)

/-! ### Ending as wanted under interference -/

/-- Interference keeps an assertion. -/
def Stable (rely : State File Content Lock Thread → State File Content Lock Thread → Prop)
    (assertion : State File Content Lock Thread → Prop) : Prop :=
  ∀ before after, rely before after → assertion before → assertion after

section WeakestCondition

variable (rely : State File Content Lock Thread → State File Content Lock Thread → Prop)
variable (thread : Thread)

/-- From this state the program, run as `thread`, always ends in `post`, when anything `rely` allows
may happen before each of its actions. -/
def Program.wp (post : Except String Result → State File Content Lock Thread → Prop) :
    Program File Content Lock Result → State File Content Lock Thread → Prop
  | .done result, state => post (.ok result) state
  | .fail message, state => post (.error message) state
  | .read file next, state => ∀ after, Relation.ReflTransGen rely state after →
      (next (after.files file)).wp post (after.look thread file)
  | .write file content next, state => ∀ after, Relation.ReflTransGen rely state after →
      (next true).wp post (after.put thread file content) ∧ (next false).wp post after
  | .acquire lock next, state => ∀ after, Relation.ReflTransGen rely state after →
      (after.holders lock = none → (next true).wp post (after.take thread lock)) ∧
        (next false).wp post after
  | .release lock next, state => ∀ after, Relation.ReflTransGen rely state after →
      next.wp post (after.free thread lock)

variable {rely} {thread}

omit [DecidableEq File] [DecidableEq Lock] [DecidableEq Thread] in
theorem Stable.reaches {assertion : State File Content Lock Thread → Prop}
    (stable : Stable rely assertion) {before after : State File Content Lock Thread}
    (reaches : Relation.ReflTransGen rely before after) (holds : assertion before) :
    assertion after := by
  induction reaches with
  | refl => exact holds
  | tail _ last inductionHypothesis => exact stable _ _ last inductionHypothesis

namespace Program

variable {post : Except String Result → State File Content Lock Thread → Prop}

theorem wp_mono {weaker : Except String Result → State File Content Lock Thread → Prop}
    (implies : ∀ outcome state, post outcome state → weaker outcome state)
    (program : Program File Content Lock Result) :
    ∀ state, program.wp rely thread post state → program.wp rely thread weaker state := by
  induction program with
  | done result => exact fun state => implies _ state
  | fail message => exact fun state => implies _ state
  | read file next inductionHypothesis =>
    intro state ends after reaches
    exact inductionHypothesis _ _ (ends after reaches)
  | write file content next inductionHypothesis =>
    intro state ends after reaches
    exact ⟨inductionHypothesis _ _ (ends after reaches).1,
      inductionHypothesis _ _ (ends after reaches).2⟩
  | acquire lock next inductionHypothesis =>
    intro state ends after reaches
    exact ⟨fun free => inductionHypothesis _ _ ((ends after reaches).1 free),
      inductionHypothesis _ _ (ends after reaches).2⟩
  | release lock next inductionHypothesis =>
    intro state ends after reaches
    exact inductionHypothesis _ (ends after reaches)

/-- The rule of sequencing. -/
theorem wp_andThen {First : Type} {next : Except String First → Program File Content Lock Result}
    (program : Program File Content Lock First) :
    ∀ state, program.wp rely thread (fun outcome => (next outcome).wp rely thread post) state →
      (program.andThen next).wp rely thread post state := by
  induction program with
  | done result => exact fun _ ends => ends
  | fail message => exact fun _ ends => ends
  | read file rest inductionHypothesis =>
    intro state ends after reaches
    exact inductionHypothesis _ _ (ends after reaches)
  | write file content rest inductionHypothesis =>
    intro state ends after reaches
    exact ⟨inductionHypothesis _ _ (ends after reaches).1,
      inductionHypothesis _ _ (ends after reaches).2⟩
  | acquire lock rest inductionHypothesis =>
    intro state ends after reaches
    exact ⟨fun free => inductionHypothesis _ _ ((ends after reaches).1 free),
      inductionHypothesis _ _ (ends after reaches).2⟩
  | release lock rest inductionHypothesis =>
    intro state ends after reaches
    exact inductionHypothesis _ (ends after reaches)

/-- What a program that ends well goes on with, and that an error is passed on. -/
def Chain {First : Type} (next : First → Program File Content Lock Result)
    (rely : State File Content Lock Thread → State File Content Lock Thread → Prop)
    (thread : Thread) (post : Except String Result → State File Content Lock Thread → Prop) :
    Except String First → State File Content Lock Thread → Prop
  | .ok result => (next result).wp rely thread post
  | .error message => post (.error message)

theorem wp_bind {First : Type} {next : First → Program File Content Lock Result}
    {program : Program File Content Lock First} {state : State File Content Lock Thread}
    (ends : program.wp rely thread (Chain next rely thread post) state) :
    (program >>= next).wp rely thread post state := by
  refine wp_andThen program state (wp_mono (fun outcome state holds => ?_) program state ends)
  cases outcome with
  | ok result => exact holds
  | error message => exact holds

section Rules

variable {assertion : State File Content Lock Thread → Prop} (stable : Stable rely assertion)
  {state : State File Content Lock Thread} (holds : assertion state)

include stable holds

theorem wp_read {file : File} {next : Option Content → Program File Content Lock Result}
    (goesOn : ∀ after, assertion after →
      (next (after.files file)).wp rely thread post (after.look thread file)) :
    (Program.read file next).wp rely thread post state :=
  fun after reaches => goesOn after (stable.reaches reaches holds)

theorem wp_write {file : File} {content : Content}
    {next : Bool → Program File Content Lock Result}
    (written : ∀ after, assertion after →
      (next true).wp rely thread post (after.put thread file content))
    (failed : ∀ after, assertion after → (next false).wp rely thread post after) :
    (Program.write file content next).wp rely thread post state :=
  fun after reaches => ⟨written after (stable.reaches reaches holds),
    failed after (stable.reaches reaches holds)⟩

theorem wp_acquire {lock : Lock} {next : Bool → Program File Content Lock Result}
    (taken : ∀ after, assertion after → after.holders lock = none →
      (next true).wp rely thread post (after.take thread lock))
    (gaveUp : ∀ after, assertion after → (next false).wp rely thread post after) :
    (Program.acquire lock next).wp rely thread post state :=
  fun after reaches => ⟨taken after (stable.reaches reaches holds),
    gaveUp after (stable.reaches reaches holds)⟩

theorem wp_release {lock : Lock} {next : Program File Content Lock Result}
    (goesOn : ∀ after, assertion after → next.wp rely thread post (after.free thread lock)) :
    (Program.release lock next).wp rely thread post state :=
  fun after reaches => goesOn after (stable.reaches reaches holds)

theorem wp_bind_writeFile {file : File} {content : Content}
    {next : Unit → Program File Content Lock Result}
    (written : ∀ after, assertion after →
      (next ()).wp rely thread post (after.put thread file content))
    (failed : ∀ message after, assertion after → post (.error message) after) :
    (writeFile file content >>= next).wp rely thread post state :=
  wp_write stable holds written fun after holds => failed _ after holds

end Rules

/-- The rule of a lock: the body ends in an assertion that interference keeps while the lock is
released. -/
theorem wp_withLock {before : State File Content Lock Thread → Prop}
    {ends : Except String Result → State File Content Lock Thread → Prop} {lock : Lock}
    {program : Program File Content Lock Result} {state : State File Content Lock Thread}
    (stable : Stable rely before) (holds : before state)
    (body : ∀ after, before after → after.holders lock = none →
      program.wp rely thread ends (after.take thread lock))
    (stableEnds : ∀ outcome, Stable rely (ends outcome))
    (released : ∀ outcome after, ends outcome after → post outcome (after.free thread lock))
    (gaveUp : ∀ after, before after → post (.error "could not take lock") after) :
    (withLock lock program).wp rely thread post state := by
  refine wp_acquire stable holds (fun after holds free => ?_) (fun after holds => ?_)
  · refine wp_andThen program _ (wp_mono (fun outcome state holds => ?_) program _
      (body after holds free))
    refine wp_release (stableEnds outcome) holds fun after holds => ?_
    cases outcome with
    | ok result => exact released _ after holds
    | error message => exact released _ after holds
  · exact gaveUp after holds

/-! ### Programs that keep an assertion -/

/-- Whatever the program does, the assertion holds when it ends. -/
def Keeps (rely : State File Content Lock Thread → State File Content Lock Thread → Prop)
    (thread : Thread) (assertion : State File Content Lock Thread → Prop)
    (program : Program File Content Lock Result) : Prop :=
  ∀ state, assertion state → program.wp rely thread (fun _ => assertion) state

section Keeps

variable {assertion : State File Content Lock Thread → Prop}

theorem keeps_done (result : Result) :
    (Program.done result : Program File Content Lock Result).Keeps rely thread assertion :=
  fun _ holds => holds

theorem keeps_bind {First : Type} {program : Program File Content Lock First}
    {next : First → Program File Content Lock Result}
    (first : program.Keeps rely thread assertion)
    (second : ∀ result, (next result).Keeps rely thread assertion) :
    (program >>= next).Keeps rely thread assertion := by
  refine fun state holds => wp_bind (wp_mono (fun outcome state holds => ?_) program state
    (first state holds))
  cases outcome with
  | ok result => exact second result state holds
  | error message => exact holds

theorem keeps_readFile (stable : Stable rely assertion) {file : File}
    (look : ∀ state, assertion state → assertion (state.look thread file)) :
    (readFile file).Keeps rely thread assertion :=
  fun _ holds => wp_read stable holds fun after holds => look after holds

theorem keeps_writeFile (stable : Stable rely assertion) {file : File} {content : Content}
    (put : ∀ state, assertion state → assertion (state.put thread file content)) :
    (writeFile file content).Keeps rely thread assertion :=
  fun _ holds => wp_write stable holds (fun after holds => put after holds) fun _ holds => holds

/-- The rule for going on after a program that keeps an assertion. -/
theorem wp_bind_keeps {First : Type} {program : Program File Content Lock First}
    {next : First → Program File Content Lock Result} {state : State File Content Lock Thread}
    (first : program.Keeps rely thread assertion) (holds : assertion state)
    (second : ∀ result after, assertion after → (next result).wp rely thread post after)
    (failed : ∀ message after, assertion after → post (.error message) after) :
    (program >>= next).wp rely thread post state := by
  refine wp_bind (wp_mono (fun outcome state holds => ?_) program state (first state holds))
  cases outcome with
  | ok result => exact second result state holds
  | error message => exact failed message state holds

end Keeps

end Program

end WeakestCondition

/-! ### Many programs -/

/-- The main program and any number of others. -/
structure System (File Content Lock Process Main Other : Type) where
  main : Program File Content Lock Main
  others : Process → Program File Content Lock Other
  state : State File Content Lock (Option Process)

section Systems

variable [DecidableEq Process]

/-- One action of the main program. -/
def System.MainStep (before after : System File Content Lock Process Main Other) : Prop :=
  before.main.Step none before.state after.main after.state ∧ after.others = before.others

/-- One action of one of the others. -/
def System.OtherStep (before after : System File Content Lock Process Main Other) : Prop :=
  ∃ process program, (before.others process).Step (some process) before.state program after.state ∧
    after.others = Function.update before.others process program ∧ after.main = before.main

def System.Step (before after : System File Content Lock Process Main Other) : Prop :=
  before.MainStep after ∨ before.OtherStep after

/-- What an interleaved run reaches. -/
def System.Reaches : System File Content Lock Process Main Other →
    System File Content Lock Process Main Other → Prop :=
  Relation.ReflTransGen System.Step

/-- The main program ends with this action. -/
def System.Completes (before after : System File Content Lock Process Main Other)
    (outcome : Except String Main) : Prop :=
  before.MainStep after ∧ after.main.outcome? = some outcome

/-! ### What the others may do -/

section Discipline

variable (permits : (Lock → Prop) → File → Prop)

/-- Every write of the program, at whatever point it is, is permitted by the locks it holds
there; and the locks it holds when it ends are as `ends` says. -/
def Program.DisciplinedTo (ends : Except String Result → (Lock → Prop) → Prop) :
    (Lock → Prop) → Program File Content Lock Result → Prop
  | held, .done result => ends (.ok result) held
  | held, .fail message => ends (.error message) held
  | held, .read _ next => ∀ found, (next found).DisciplinedTo ends held
  | held, .write file _ next =>
      permits held file ∧ ∀ written, (next written).DisciplinedTo ends held
  | held, .acquire lock next =>
      (next true).DisciplinedTo ends (fun other => other = lock ∨ held other) ∧
        (next false).DisciplinedTo ends held
  | held, .release lock next => next.DisciplinedTo ends fun other => other ≠ lock ∧ held other

/-- Every write of the program is permitted. -/
def Program.Disciplined (held : Lock → Prop) (program : Program File Content Lock Result) : Prop :=
  program.DisciplinedTo permits (fun _ _ => True) held

/-- The locks a thread holds. -/
def State.Holds (state : State File Content Lock Thread) (thread : Thread) (lock : Lock) : Prop :=
  state.holders lock = some thread

/-- One action of a disciplined program, as the main program sees it. -/
inductive Interference : State File Content Lock (Option Process) →
    State File Content Lock (Option Process) → Prop
  | idle (state) : Interference state state
  | look (state : State File Content Lock (Option Process)) (process file) :
      Interference state (state.look (some process) file)
  | put (state : State File Content Lock (Option Process)) (process file content)
      (permitted : permits (state.Holds (some process)) file) :
      Interference state (state.put (some process) file content)
  | take (state : State File Content Lock (Option Process)) (process lock)
      (free : state.holders lock = none) : Interference state (state.take (some process) lock)
  | free (state : State File Content Lock (Option Process)) (process lock) :
      Interference state (state.free (some process) lock)

/-- All others are disciplined. -/
def System.Disciplined (system : System File Content Lock Process Main Other) : Prop :=
  ∀ process, (system.others process).Disciplined permits (system.state.Holds (some process))

variable {permits}

omit [DecidableEq File] [DecidableEq Lock] in
theorem Program.disciplinedTo_mono {ends weaker : Except String Result → (Lock → Prop) → Prop}
    (implies : ∀ outcome held, ends outcome held → weaker outcome held)
    (program : Program File Content Lock Result) :
    ∀ held, program.DisciplinedTo permits ends held → program.DisciplinedTo permits weaker held := by
  induction program with
  | done result => exact fun held => implies _ held
  | fail message => exact fun held => implies _ held
  | read file next inductionHypothesis =>
    exact fun held disciplined found => inductionHypothesis found held (disciplined found)
  | write file content next inductionHypothesis =>
    exact fun held disciplined => ⟨disciplined.1,
      fun written => inductionHypothesis written held (disciplined.2 written)⟩
  | acquire lock next inductionHypothesis =>
    exact fun held disciplined => ⟨inductionHypothesis true _ disciplined.1,
      inductionHypothesis false _ disciplined.2⟩
  | release lock next inductionHypothesis =>
    exact fun held disciplined => inductionHypothesis _ disciplined

omit [DecidableEq File] [DecidableEq Lock] in
theorem Program.disciplinedTo_andThen {First : Type}
    {next : Except String First → Program File Content Lock Result}
    {ends : Except String Result → (Lock → Prop) → Prop} (program : Program File Content Lock First) :
    ∀ held, program.DisciplinedTo permits
        (fun outcome held => (next outcome).DisciplinedTo permits ends held) held →
      (program.andThen next).DisciplinedTo permits ends held := by
  induction program with
  | done result => exact fun _ disciplined => disciplined
  | fail message => exact fun _ disciplined => disciplined
  | read file next inductionHypothesis =>
    exact fun held disciplined found => inductionHypothesis found held (disciplined found)
  | write file content next inductionHypothesis =>
    exact fun held disciplined => ⟨disciplined.1,
      fun written => inductionHypothesis written held (disciplined.2 written)⟩
  | acquire lock next inductionHypothesis =>
    exact fun held disciplined => ⟨inductionHypothesis true _ disciplined.1,
      inductionHypothesis false _ disciplined.2⟩
  | release lock next inductionHypothesis =>
    exact fun held disciplined => inductionHypothesis _ disciplined

variable (permits) in
/-- A disciplined program that ends with the locks it began with, and with one of these results. -/
def Program.Tidy (held : Lock → Prop) (results : Result → Prop)
    (program : Program File Content Lock Result) : Prop :=
  program.DisciplinedTo permits
    (fun outcome after => after = held ∧ ∀ result, outcome = .ok result → results result) held

section Tidy

variable {held : Lock → Prop} {results : Result → Prop}

omit [DecidableEq File] [DecidableEq Lock]

theorem Program.tidy_done {result : Result} (holds : results result) :
    (Program.done result : Program File Content Lock Result).Tidy permits held results :=
  ⟨rfl, fun _ same => Except.ok.inj same ▸ holds⟩

theorem Program.tidy_fail (message : String) :
    (Program.fail message : Program File Content Lock Result).Tidy permits held results :=
  ⟨rfl, fun _ same => by cases same⟩

theorem Program.tidy_readFile (file : File) :
    (readFile file : Program File Content Lock (Option Content)).Tidy permits held
      fun _ => True :=
  fun _ => ⟨rfl, fun _ _ => trivial⟩

theorem Program.tidy_bind {First : Type} {firsts : First → Prop}
    {program : Program File Content Lock First} {next : First → Program File Content Lock Result}
    (first : program.Tidy permits held firsts)
    (second : ∀ result, firsts result → (next result).Tidy permits held results) :
    (program >>= next).Tidy permits held results := by
  refine disciplinedTo_andThen program held
    (disciplinedTo_mono (fun outcome after ended => ?_) program held first)
  obtain ⟨same, holds⟩ := ended
  subst same
  cases outcome with
  | ok result => exact second result (holds result rfl)
  | error message => exact tidy_fail message

theorem Program.Tidy.disciplined {program : Program File Content Lock Result}
    (tidy : program.Tidy permits held results) : program.Disciplined permits held :=
  disciplinedTo_mono (fun _ _ _ => trivial) program held tidy

theorem Program.disciplined_bind {First : Type} {firsts : First → Prop}
    {program : Program File Content Lock First} {next : First → Program File Content Lock Result}
    (first : program.Tidy permits held firsts)
    (second : ∀ result, firsts result → (next result).Disciplined permits held) :
    (program >>= next).Disciplined permits held := by
  refine disciplinedTo_andThen program held
    (disciplinedTo_mono (fun outcome after ended => ?_) program held first)
  obtain ⟨same, holds⟩ := ended
  subst same
  cases outcome with
  | ok result => exact second result (holds result rfl)
  | error message => trivial

theorem Program.disciplined_andThen {First : Type} {program : Program File Content Lock First}
    {next : Except String First → Program File Content Lock Result}
    (first : program.Disciplined permits held)
    (second : ∀ outcome after, (next outcome).Disciplined permits after) :
    (program.andThen next).Disciplined permits held :=
  disciplinedTo_andThen program held
    (disciplinedTo_mono (fun outcome after _ => second outcome after) program held first)

end Tidy

omit [DecidableEq File] [DecidableEq Lock] in
theorem Program.disciplined_withLock {program : Program File Content Lock Result} {lock : Lock}
    {held : Lock → Prop} (body : program.Disciplined permits fun other => other = lock ∨ held other) :
    (withLock lock program).Disciplined permits held := by
  refine ⟨disciplinedTo_andThen program _
    (disciplinedTo_mono (fun outcome held _ => ?_) program _ body), trivial⟩
  cases outcome <;> trivial

theorem Program.Disciplined.interference {process : Process}
    {program next : Program File Content Lock Result}
    {before after : State File Content Lock (Option Process)}
    (disciplined : program.Disciplined permits (before.Holds (some process)))
    (step : program.Step (some process) before next after) :
    Interference permits before after := by
  cases step with
  | read file next => exact .look before process file
  | write file content next => exact .put before process file content disciplined.1
  | writeFails file content next => exact .idle before
  | acquire lock next _ free => exact .take before process lock free
  | timeout lock next => exact .idle before
  | release lock => exact .free before process lock

omit [DecidableEq File] [DecidableEq Thread] in
theorem State.holds_take {state : State File Content Lock Thread} {lock : Lock}
    (free : state.holders lock = none) (thread other : Thread) :
    (state.take thread lock).Holds other =
      fun held => (other = thread ∧ held = lock) ∨ state.Holds other held := by
  funext held
  refine propext ?_
  by_cases same : held = lock
  · subst same
    simp [State.Holds, State.take, free, eq_comm]
  · simp [State.Holds, State.take, same]

omit [DecidableEq File] in
theorem State.holds_free (state : State File Content Lock Thread) (lock : Lock)
    (thread other : Thread) :
    (state.free thread lock).Holds other =
      fun held => ¬ (other = thread ∧ held = lock) ∧ state.Holds other held := by
  funext held
  refine propext ?_
  by_cases mine : state.holders lock = some thread
  · by_cases same : held = lock
    · subst same
      simp [State.Holds, State.free, mine, eq_comm]
    · simp [State.Holds, State.free, mine, same]
  · have kept : ¬ (other = thread ∧ held = lock ∧ state.holders held = some other) := by
      rintro ⟨rfl, rfl, held⟩
      exact mine held
    simp only [State.Holds, State.free, mine, if_false]
    exact ⟨fun holds => ⟨fun both => kept ⟨both.1, both.2, holds⟩, holds⟩, And.right⟩

/-- A disciplined program stays disciplined. -/
theorem Program.Disciplined.step {thread : Thread} {program next : Program File Content Lock Result}
    {before after : State File Content Lock Thread}
    (disciplined : program.Disciplined permits (before.Holds thread))
    (step : program.Step thread before next after) :
    next.Disciplined permits (after.Holds thread) := by
  cases step with
  | read file next => exact disciplined _
  | write file content next => exact disciplined.2 true
  | writeFails file content next => exact disciplined.2 false
  | acquire lock next _ free =>
    rw [State.holds_take free]
    simpa [Program.Disciplined] using disciplined.1
  | timeout lock next => exact disciplined.2
  | release lock =>
    rw [State.holds_free]
    simpa [Program.Disciplined, Program.DisciplinedTo] using disciplined

/-- No action changes which locks the other threads hold. -/
theorem Program.Step.holds {thread other : Thread} (different : other ≠ thread)
    {program next : Program File Content Lock Result} {before after : State File Content Lock Thread}
    (step : program.Step thread before next after) :
    after.Holds other = before.Holds other := by
  cases step with
  | acquire lock next _ free =>
    rw [State.holds_take free]
    simp [different]
  | release lock =>
    rw [State.holds_free]
    simp [different]
  | _ => rfl

theorem System.Disciplined.step {before after : System File Content Lock Process Main Other}
    (disciplined : before.Disciplined permits) (step : before.Step after) :
    after.Disciplined permits := by
  intro process
  rcases step with ⟨step, others⟩ | ⟨actor, program, step, others, -⟩
  · rw [others, step.holds (Option.some_ne_none process)]
    exact disciplined process
  · rw [others]
    by_cases same : process = actor
    · subst same
      rw [Function.update_self]
      exact (disciplined process).step step
    · have different : some process ≠ some actor := fun equal => same (Option.some.inj equal)
      rw [Function.update_of_ne same, step.holds different]
      exact disciplined process

theorem System.Disciplined.reaches {start finish : System File Content Lock Process Main Other}
    (disciplined : start.Disciplined permits) (run : start.Reaches finish) :
    finish.Disciplined permits := by
  induction run with
  | refl => exact disciplined
  | tail _ step inductionHypothesis => exact inductionHypothesis.step step

/-! ### Runs -/

/-- The main program has ended, or will end as wanted. -/
def System.Awaits (permits : (Lock → Prop) → File → Prop)
    (post : Except String Main → State File Content Lock (Option Process) → Prop)
    (system : System File Content Lock Process Main Other) : Prop :=
  system.main.outcome? ≠ none ∨
    system.main.wp (Interference permits) none post system.state

/-- One action of a program that will end as wanted. -/
theorem Program.wp_step {rely : State File Content Lock Thread → State File Content Lock Thread → Prop}
    {thread : Thread} {post : Except String Result → State File Content Lock Thread → Prop}
    {program next : Program File Content Lock Result} {before after : State File Content Lock Thread}
    (ends : program.wp rely thread post before) (step : program.Step thread before next after) :
    next.wp rely thread post after := by
  cases step with
  | read file next => exact ends before .refl
  | write file content next => exact (ends before .refl).1
  | writeFails file content next => exact (ends before .refl).2
  | acquire lock next _ free => exact (ends before .refl).1 free
  | timeout lock next => exact (ends before .refl).2
  | release lock => exact ends before .refl

/-- Interference before the next action is already accounted for. -/
theorem Program.wp_interference
    {rely : State File Content Lock Thread → State File Content Lock Thread → Prop}
    {thread : Thread} {post : Except String Result → State File Content Lock Thread → Prop}
    {program : Program File Content Lock Result} {before after : State File Content Lock Thread}
    (ends : program.wp rely thread post before) (interference : rely before after)
    (running : program.outcome? = none) : program.wp rely thread post after := by
  cases program with
  | done result => exact absurd running (Option.some_ne_none _)
  | fail message => exact absurd running (Option.some_ne_none _)
  | read file next => exact fun later reaches => ends later (.head interference reaches)
  | write file content next => exact fun later reaches => ends later (.head interference reaches)
  | acquire lock next => exact fun later reaches => ends later (.head interference reaches)
  | release lock next => exact fun later reaches => ends later (.head interference reaches)

theorem System.Awaits.step
    {post : Except String Main → State File Content Lock (Option Process) → Prop}
    {before after : System File Content Lock Process Main Other}
    (disciplined : before.Disciplined permits) (awaits : before.Awaits permits post)
    (step : before.Step after) : after.Awaits permits post := by
  rcases awaits with ended | ends
  · rcases step with ⟨step, -⟩ | ⟨process, program, -, -, main⟩
    · cases outcome : before.main with
      | done result => rw [outcome] at step; cases step
      | fail message => rw [outcome] at step; cases step
      | _ => exact absurd (by rw [outcome]; rfl) ended
    · exact Or.inl (main ▸ ended)
  · rcases step with ⟨step, -⟩ | ⟨process, program, step, -, main⟩
    · exact Or.inr (Program.wp_step ends step)
    · by_cases running : before.main.outcome? = none
      · rw [System.Awaits, main]
        exact Or.inr (Program.wp_interference ends ((disciplined process).interference step) running)
      · exact Or.inl (main ▸ running)

/-- The run lemma: whatever the others did, the main program ends as wanted. -/
theorem System.wp_completes
    {post : Except String Main → State File Content Lock (Option Process) → Prop}
    {start before after : System File Content Lock Process Main Other} {outcome : Except String Main}
    (disciplined : start.Disciplined permits)
    (ends : start.main.wp (Interference permits) none post start.state)
    (run : start.Reaches before) (completes : before.Completes after outcome) :
    post outcome after.state := by
  have invariant : before.Disciplined permits ∧ before.Awaits permits post := by
    clear completes
    induction run with
    | refl => exact ⟨disciplined, Or.inr ends⟩
    | tail _ step inductionHypothesis =>
      exact ⟨inductionHypothesis.1.step step, inductionHypothesis.2.step inductionHypothesis.1 step⟩
  obtain ⟨⟨step, -⟩, ended⟩ := completes
  rcases invariant.2 with already | ends
  · cases program : before.main with
    | done result => rw [program] at step; cases step
    | fail message => rw [program] at step; cases step
    | _ => exact absurd (by rw [program]; rfl) already
  · have ends := Program.wp_step ends step
    cases program : after.main with
    | done result =>
      rw [program] at ends ended
      exact Option.some.inj ended ▸ ends
    | fail message =>
      rw [program] at ends ended
      exact Option.some.inj ended ▸ ends
    | _ => rw [program] at ended; cases ended

end Discipline

/-! ### Running alone -/

/-- The run of a program that is never interrupted and whose writes succeed. -/
def Program.execute (thread : Thread) : Program File Content Lock Result →
    State File Content Lock Thread → Except String Result × State File Content Lock Thread
  | .done result, state => (.ok result, state)
  | .fail message, state => (.error message, state)
  | .read file next, state => (next (state.files file)).execute thread (state.look thread file)
  | .write file content next, state => (next true).execute thread (state.put thread file content)
  | .acquire lock next, state =>
      if state.holders lock = none then (next true).execute thread (state.take thread lock)
      else (next false).execute thread state
  | .release lock next, state => next.execute thread (state.free thread lock)

/-- Running alone is one of the interleaved runs. -/
theorem System.exists_completes (program : Program File Content Lock Main) :
    ∀ (others : Process → Program File Content Lock Other)
      (state : State File Content Lock (Option Process)), program.outcome? = none →
      ∃ before after, System.Reaches ⟨program, others, state⟩ before ∧
        before.Completes after (program.execute none state).1 ∧
        after.state = (program.execute none state).2 := by
  have goesOn : ∀ (others : Process → Program File Content Lock Other)
      (first next : Program File Content Lock Main)
      (state after : State File Content Lock (Option Process)),
      first.Step none state next after → first.execute none state = next.execute none after →
      (next.outcome? = none → ∃ before final, System.Reaches ⟨next, others, after⟩ before ∧
        before.Completes final (next.execute none after).1 ∧
        final.state = (next.execute none after).2) →
      ∃ before final, System.Reaches ⟨first, others, state⟩ before ∧
        before.Completes final (first.execute none state).1 ∧
        final.state = (first.execute none state).2 := by
    intro others first next state after step same rest
    rw [same]
    have mainStep : System.MainStep ⟨first, others, state⟩ ⟨next, others, after⟩ := ⟨step, rfl⟩
    cases ended : next.outcome? with
    | none =>
      obtain ⟨before, final, reaches, completes, result⟩ := rest ended
      exact ⟨before, final, .head (Or.inl mainStep) reaches, completes, result⟩
    | some outcome =>
      refine ⟨_, ⟨next, others, after⟩, .refl, ⟨mainStep, ?_⟩, ?_⟩ <;>
        cases next <;> first | rfl | cases ended
  induction program with
  | done result => exact fun _ _ running => absurd running (Option.some_ne_none _)
  | fail message => exact fun _ _ running => absurd running (Option.some_ne_none _)
  | read file next inductionHypothesis =>
    exact fun others state _ => goesOn others _ _ state _ (.read file next state) rfl
      (inductionHypothesis _ others _)
  | write file content next inductionHypothesis =>
    exact fun others state _ => goesOn others _ _ state _ (.write file content next state) rfl
      (inductionHypothesis _ others _)
  | acquire lock next inductionHypothesis =>
    intro others state _
    by_cases free : state.holders lock = none
    · exact goesOn others _ _ state _ (.acquire lock next state free) (if_pos free)
        (inductionHypothesis _ others _)
    · exact goesOn others _ _ state _ (.timeout lock next state) (if_neg free)
        (inductionHypothesis _ others _)
  | release lock next inductionHypothesis =>
    exact fun others state _ => goesOn others _ _ state _ (.release lock next state) rfl
      (inductionHypothesis others _)

end Systems

end Interleaving
