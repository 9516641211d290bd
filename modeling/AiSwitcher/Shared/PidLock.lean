/-
This file models `acquirePidLock` (`shared/pid-lock.ts`) as the file steps of any number of
calls. Every call publishes its own complete lock file with `link`, waits while the lock file
names a live process, and takes a stale lock over through a claim file whose name is derived
from the stale content. One step of a call is one file operation with the code up to the next
`await`, so between any two steps of a call every other call may step and processes may die.

The text of a lock file is read back through `JSON.parse` and named through a hash. Both are
parameters of the model, with what the code relies on.
-/

import Mathlib.Logic.Function.Basic
import Mathlib.Logic.Relation
import Mathlib.Data.Set.Insert

namespace AiSwitcher.PidLock

/-- What the calls write to the lock file and read back from it. A call is named by its token,
which is unique (`process.pid` and a random UUID). -/
structure LockFormat (Pid Call Text Name : Type) where
  pid : Call → Pid
  body : Call → Text
  /-- The `pid` of a parsed text; none when it does not parse or the pid is no number. -/
  readPid : Text → Option Pid
  /-- The `token` of a parsed text, if it is the token of a call. -/
  readToken : Text → Option Call
  /-- The claim file for a content: `claim-` and its SHA-1. -/
  claimName : Text → Name
  readPid_body : ∀ call, readPid (body call) = some (pid call)
  readToken_body : ∀ call, readToken (body call) = some call
  claimName_injective : Function.Injective claimName

/-- Where a call is. Each phase but the last ones is the file operation it does next. -/
inductive Phase (Call Text : Type) where
  | idle
  /-- List the directory, to reap temporary files of dead processes. -/
  | listing
  | reaping (names : List Call)
  /-- Write the temporary file, at the head of the loop. -/
  | writing
  /-- Link the temporary file to the lock file. -/
  | linking
  /-- Linked: unlink the temporary file and return the release function. -/
  | published
  /-- The lock file exists: unlink the temporary file. -/
  | refused
  /-- Another error: unlink the temporary file and throw. -/
  | failing
  | reading
  /-- Ask whether the process of the lock file that was read is alive. -/
  | judging (seen : Text)
  | writingClaim (seen : Text)
  /-- Link the temporary file to the claim file of the stale content. -/
  | claiming (seen : Text)
  | rereading (seen : Text)
  /-- Unlink the lock file that still has the claimed content. -/
  | removing (seen : Text)
  | unclaiming (seen : Text) (won : Bool)
  /-- Unlink the temporary file after the attempt to take over. -/
  | clearing (won : Bool)
  | readingClaim (seen : Text)
  | judgingClaim (seen claim : Text)
  /-- Unlink a claim file that a dead process left. -/
  | reapingClaim (seen : Text)
  /-- Compare the clock with the deadline, and sleep. -/
  | expiring
  | holding
  /-- The release function was called: read the lock file. -/
  | releasing
  /-- The lock file has the token of the call: unlink it. -/
  | dropping
  | released
  /-- Returned without the lock, or threw. -/
  | failed
  deriving DecidableEq

/-- The lock file, the claim files and the temporary files (each named by the token of its call
and holding its body), the processes that are alive, and where the calls are. -/
structure State (Pid Call Text Name : Type) where
  lock : Option Text
  claims : Name → Option Text
  temps : List Call
  alive : Pid → Bool
  phase : Call → Phase Call Text

/-- What one step does to the files. -/
inductive Action (Call Name : Type) where
  | keep
  | writeTemp
  | unlinkTemp (name : Call)
  | linkLock
  | unlinkLock
  | linkClaim (name : Name)
  | unlinkClaim (name : Name)

/-- A file operation whose errors are caught. -/
def Action.caught (fault : Bool) (action : Action Call Name) : Action Call Name :=
  if fault then .keep else action

inductive Event (Pid Call : Type) where
  | start (call : Call)
  /-- A call does its next file operation. A fault is an error other than that the file exists or
  is missing; late is what the clock says about the deadline. -/
  | run (call : Call) (fault late : Bool)
  | release (call : Call)
  | die (pid : Pid)

section Model

variable {Pid Call Text Name : Type} [DecidableEq Pid] [DecidableEq Call] [DecidableEq Text]
  [DecidableEq Name] (format : LockFormat Pid Call Text Name)

def State.isStale (state : State Pid Call Text Name) (raw : Text) : Bool :=
  match format.readPid raw with
  | none => true
  | some pid => !state.alive pid

def State.enter (state : State Pid Call Text Name) (call : Call) (phase : Phase Call Text) :
    State Pid Call Text Name :=
  { state with phase := Function.update state.phase call phase }

def State.perform (state : State Pid Call Text Name) (call : Call) :
    Action Call Name → State Pid Call Text Name
  | .keep => state
  | .writeTemp => { state with temps := state.temps.insert call }
  | .unlinkTemp name => { state with temps := state.temps.filter (· ≠ name) }
  | .linkLock => { state with lock := some (format.body call) }
  | .unlinkLock => { state with lock := none }
  | .linkClaim name =>
      { state with claims := Function.update state.claims name (some (format.body call)) }
  | .unlinkClaim name => { state with claims := Function.update state.claims name none }

/-- The next file operation of a call, and where the call goes on. None when the call waits for
its caller, or is over. -/
def State.next (state : State Pid Call Text Name) (call : Call) (fault late : Bool) :
    Phase Call Text → Option (Action Call Name × Phase Call Text)
  | .idle | .holding | .released | .failed => none
  | .listing => some (.keep, .reaping (if fault then [] else state.temps))
  | .reaping [] => some (.keep, .writing)
  | .reaping (name :: names) =>
      if state.alive (format.pid name) || fault then some (.keep, .reaping names)
      else some (.unlinkTemp name, .reaping names)
  | .writing => if fault then some (.keep, .failed) else some (.writeTemp, .linking)
  | .linking =>
      if fault || !state.temps.contains call then some (.keep, .failing)
      else match state.lock with
        | none => some (.linkLock, .published)
        | some _ => some (.keep, .refused)
  | .published => if fault then some (.keep, .failing) else some (.unlinkTemp call, .holding)
  | .refused => some (.caught fault (.unlinkTemp call), .reading)
  | .failing => some (.caught fault (.unlinkTemp call), .failed)
  | .reading =>
      if fault then some (.keep, .expiring)
      else match state.lock with
        | none => some (.keep, .writing)
        | some seen => some (.keep, .judging seen)
  | .judging seen =>
      if state.isStale format seen then some (.keep, .writingClaim seen)
      else some (.keep, .expiring)
  | .writingClaim seen =>
      if fault then some (.keep, .clearing false) else some (.writeTemp, .claiming seen)
  | .claiming seen =>
      if fault || !state.temps.contains call then some (.keep, .clearing false)
      else match state.claims (format.claimName seen) with
        | none => some (.linkClaim (format.claimName seen), .rereading seen)
        | some _ => some (.keep, .readingClaim seen)
  -- A missing lock file counts as removed; another error gives the claim up.
  | .rereading seen =>
      if fault then some (.keep, .unclaiming seen false)
      else if state.lock = some seen then some (.keep, .removing seen)
      else some (.keep, .unclaiming seen true)
  | .removing seen =>
      if fault then some (.keep, .unclaiming seen false)
      else some (.unlinkLock, .unclaiming seen true)
  | .unclaiming seen won =>
      some (.caught fault (.unlinkClaim (format.claimName seen)), .clearing won)
  | .clearing won =>
      if won then some (.caught fault (.unlinkTemp call), .writing)
      else some (.caught fault (.unlinkTemp call), .expiring)
  | .readingClaim seen =>
      if fault then some (.keep, .clearing false)
      else match state.claims (format.claimName seen) with
        | none => some (.keep, .clearing false)
        | some claim => some (.keep, .judgingClaim seen claim)
  | .judgingClaim seen claim =>
      if state.isStale format claim then some (.keep, .reapingClaim seen)
      else some (.keep, .clearing false)
  | .reapingClaim seen =>
      some (.caught fault (.unlinkClaim (format.claimName seen)), .clearing false)
  | .expiring => if late then some (.keep, .failed) else some (.keep, .writing)
  | .releasing =>
      if fault then some (.keep, .released)
      else match state.lock with
        | none => some (.keep, .released)
        | some current =>
            if format.readToken current = some call then some (.keep, .dropping)
            else some (.keep, .released)
  | .dropping => some (.caught fault .unlinkLock, .released)

/-- A process that is dead takes no step; each call starts once. Its release function may be
called again once it has run. -/
def State.step (state : State Pid Call Text Name) :
    Event Pid Call → Option (State Pid Call Text Name)
  | .start call =>
      if state.alive (format.pid call) ∧ state.phase call = .idle
      then some (state.enter call .listing) else none
  | .run call fault late =>
      if state.alive (format.pid call) then
        (state.next format call fault late (state.phase call)).map fun (action, phase) =>
          (state.perform format call action).enter call phase
      else none
  | .release call =>
      if state.alive (format.pid call) ∧
        (state.phase call = .holding ∨ state.phase call = .released)
      then some (state.enter call .releasing) else none
  | .die pid => some { state with alive := Function.update state.alive pid false }

/-- The content a call has claimed and not yet let go of. -/
def Phase.claimed : Phase Call Text → Option Text
  | .rereading seen | .removing seen | .unclaiming seen _ => some seen
  | _ => none

/-- The call has not linked the lock file. -/
def Phase.Unpublished : Phase Call Text → Prop
  | .published | .failing | .failed | .holding | .releasing | .dropping | .released => False
  | _ => True

/-- The call tries to obtain the lock. -/
def Phase.Acquiring (phase : Phase Call Text) : Prop :=
  phase.Unpublished ∧ phase ≠ .idle

/-- The call has begun, or begun again, and has not read the lock file since. -/
def Phase.Begun : Phase Call Text → Prop
  | .listing | .reaping _ | .writing | .linking | .refused | .reading => True
  | _ => False

/-- The content of the lock file that a call has read in this attempt. -/
def Phase.seen : Phase Call Text → Option Text
  | .judging seen | .writingClaim seen | .claiming seen | .rereading seen | .removing seen
  | .unclaiming seen _ | .readingClaim seen | .judgingClaim seen _ | .reapingClaim seen => some seen
  | _ => none

/-- A process does not die between winning a claim file and unlinking it, and no file operation
of the claimant fails there. -/
def State.Allowed (state : State Pid Call Text Name) : Event Pid Call → Prop
  | .run call fault _ => fault = true → (state.phase call).claimed = none
  | .die pid => ∀ call, format.pid call = pid → (state.phase call).claimed = none
  | _ => True

def Step (before after : State Pid Call Text Name) : Prop :=
  ∃ event, before.Allowed format event ∧ before.step format event = some after

/-- No call has begun, and the lock file, if there is one, was not written by one of them. -/
structure State.Initial (state : State Pid Call Text Name) : Prop where
  idle : ∀ call, state.phase call = .idle
  unclaimed : ∀ name, state.claims name = none
  foreign : ∀ raw call, state.lock = some raw → format.readToken raw ≠ some call

def Reachable (state : State Pid Call Text Name) : Prop :=
  ∃ initial, initial.Initial format ∧ Relation.ReflTransGen (Step format) initial state

/-- A call runs alone from here: only it steps, without faults, and the clock answers as given. -/
def State.alone (call : Call) : (Nat → Bool) → Nat → State Pid Call Text Name →
    State Pid Call Text Name
  | _, 0, state => state
  | clock, count + 1, state =>
      State.alone call (fun index => clock (index + 1)) count
        ((state.step format (.run call false (clock 0))).getD state)

/-- Running alone the call comes to hold the lock, if the clock only gives these answers. -/
def Obtains (answers : Set Bool) (call : Call) (state : State Pid Call Text Name) : Prop :=
  ∀ clock : Nat → Bool, (∀ index, clock index ∈ answers) →
    ∃ count, (state.alone format call clock count).phase call = .holding

/-- A live process of which a call has linked the lock file and was not asked to release it. -/
def State.Holds (state : State Pid Call Text Name) (call : Call) : Prop :=
  state.alive (format.pid call) = true ∧
    (state.phase call = .published ∨ state.phase call = .holding)

def State.MutualExclusion (state : State Pid Call Text Name) : Prop :=
  ∀ first second, state.Holds format first → state.Holds format second → first = second

/-- The lock file is only unlinked by a call with its own token there, or by the one call that
read exactly this content, found it stale and has its claim file. -/
def State.UnlinksOwn (state : State Pid Call Text Name) : Prop :=
  ∀ event after raw, state.Allowed format event → state.step format event = some after →
    state.lock = some raw → after.lock ≠ some raw →
      ∃ call fault late, event = .run call fault late ∧ after.lock = none ∧
        (state.phase call = .dropping ∧ raw = format.body call ∨
          state.phase call = .removing raw ∧ state.isStale format raw = true ∧
            state.claims (format.claimName raw) = some (format.body call))

/-- A lock file that is published differs from all that any call has read and still acts upon. -/
def State.PublishesNew (state : State Pid Call Text Name) : Prop :=
  ∀ event after raw, state.Allowed format event → state.step format event = some after →
    state.lock ≠ some raw → after.lock = some raw →
      state.lock = none ∧ ∀ other, (state.phase other).seen ≠ some raw

/-- A lock that names no live process, and whose content no other call has claimed and not let go
of, is obtained by a call that runs alone: whatever the clock says if it has not read the lock
file yet, else before its deadline. -/
def State.ObtainedAlone (state : State Pid Call Text Name) : Prop :=
  ∀ call, state.alive (format.pid call) = true →
    (∀ raw, state.lock = some raw → state.isStale format raw = true) →
    (∀ other raw, other ≠ call → (state.phase other).claimed = some raw →
      state.lock ≠ some raw) →
    ((state.phase call).Begun → Obtains format Set.univ call state) ∧
      ((state.phase call).Acquiring → Obtains format {false} call state)

end Model

end AiSwitcher.PidLock
