/-
This file embeds `applyInbox` of `src/live/inbox.ts`: a bundle from the host is applied to
the drive entry by entry, logs by appending the lines that are missing, credentials by the
merge of grants under the refresh lock, configuration by the three-way comparison with the
hashes of the last exchange, and the sequence number is recorded last.

Every access to the drive is an action of the program, so that it can fail, and the whole can
be cut off, after any of them.
-/

import AiSwitcher.Library.Interrupted
import AiSwitcher.Library.Utf8
import AiSwitcher.Live.Auth
import AiSwitcher.Live.Portable

namespace AiSwitcher.Live

open JavaScript Interrupted Utf8

variable {Text : Type}

/-! ### Bundles and drives -/

/-- The content of an entry, by its class. Logs are compared line by line, so their bytes
matter. -/
inductive Payload (Text : Type) where
  | auth (content : Text)
  | config (content : Text)
  | ssh (content : Text)
  | logs (content : Bytes)

def Payload.isAuth : Payload Text → Bool
  | .auth _ => true
  | _ => false

/-- A parsed inbox: `parseBundleTar` has checked the sequence number and that no path is listed
twice. A path belongs to one class. -/
structure Bundle (Text : Type) where
  seq : Nat
  entries : List (String × Payload Text)
  positive : 1 ≤ seq
  distinct : (entries.map Prod.fst).Nodup

structure InboxState where
  lastInboxSeq : Nat
  hashes : Members String
  deriving DecidableEq

/-- The file with the inbox state: it may not be there yet, and it may be invalid. -/
inductive StateFile where
  | missing
  | valid (state : InboxState)
  | invalid

/-- The files of a drive that bundles reach. -/
structure Drive (Text : Type) where
  files : String → Option Text
  logs : String → Option Bytes
  state : StateFile

def readState : StateFile → Except String InboxState
  | .missing => .ok ⟨0, []⟩
  | .valid state => .ok state
  | .invalid => .error "live exchange state is invalid"

/-! ### The clock -/

/-- A JavaScript number that is a time. -/
inductive ClockTime where
  | finite (ms : ℚ)
  | infinite
  | nan

structure InboxClock where
  imageBuildTimeMs : ClockTime
  newestPersistedMtimeMs : ClockTime
  httpDateMs : Option ClockTime
  online : Bool
  nowMs : ClockTime

def implausibleReason (clock : InboxClock) : Option String :=
  match clock.nowMs, clock.imageBuildTimeMs, clock.newestPersistedMtimeMs with
  | .finite now, .finite build, .finite persisted =>
      if now ≤ build then some "before-image-build"
      else if now < persisted then some "before-persisted-write"
      else
        match clock.httpDateMs with
        | some (.finite date) =>
            if 60 * 60 * 1000 < |now - date| then some "http-date-skew" else none
        | some .infinite => some (if clock.online then "online-without-http-date" else "http-date-skew")
        | some .nan => if clock.online then some "online-without-http-date" else none
        | none => if clock.online then some "online-without-http-date" else none
  | _, _, _ => some "clock-input"

/-! ### Log lines -/

/-- `text.split(/\r?\n/)` -/
def splitLines : List Char → List (List Char)
  | [] => [[]]
  | '\r' :: '\n' :: rest => [] :: splitLines rest
  | '\n' :: rest => [] :: splitLines rest
  | character :: rest =>
      match splitLines rest with
      | line :: lines => (character :: line) :: lines
      | [] => [[character]]

/-- The lines of a log that are not empty. -/
def logLines (bytes : Bytes) : List (List Char) :=
  (splitLines (decode bytes)).filter fun line => !line.isEmpty

/-- The incoming lines that occur more often than in the current log, one by one. -/
def additions (counted : List (List Char)) : List (List Char) → List (List Char)
  | [] => []
  | line :: lines =>
      if line ∈ counted then additions (counted.erase line) lines
      else line :: additions counted lines

def missingLogLines (current : Option Bytes) (incoming : Bytes) : Bytes :=
  let missing := additions (logLines (current.getD [])) (logLines incoming)
  if missing.isEmpty then []
  else
    let separator : List Char :=
      if (current.getD []).getLast?.any (· != newline) then ['\n'] else []
    encode (separator ++ List.intercalate ['\n'] missing ++ ['\n'])

/-! ### Actions -/

inductive Choice where
  | drive
  | bundle
  deriving DecidableEq

/-- What a bundle's application does to its surroundings. -/
inductive InboxAct (Text : Type) : Type → Type
  | readState : InboxAct Text (Except String InboxState)
  | readFile (path : String) : InboxAct Text (Except String (Option Text))
  | readLog (path : String) : InboxAct Text (Except String (Option Bytes))
  | chooseConflict (path : String) : InboxAct Text (Except String Choice)
  | appendLog (path : String) (bytes : Bytes) : InboxAct Text (Except String Unit)
  | lockAuth (path : String) : InboxAct Text (Except String Unit)
  | hasOpenOwner (path : String) : InboxAct Text (Except String (Option Bool))
  | renameAuth (path : String) (expected : Option String) (content : Text) :
      InboxAct Text (Except String Bool)
  | writeFile (path : String) (content : Text) : InboxAct Text (Except String Unit)
  | writeState (next : InboxState) : InboxAct Text (Except String Unit)

abbrev Inbox (Text Result : Type) := Program (InboxAct Text) String Result

structure InboxDeps where
  clock : InboxClock
  isTTY : Bool
  canChoose : Bool
  lastInboxSeq : Option Nat

structure InboxResult where
  applied : Nat
  skipped : Nat
  conflicts : List String
  deferred : Option String
  lastInboxSeq : Nat
  deriving DecidableEq

section Applying

variable (runtime : LiveRuntime Text) (tokens : TokenRuntime)

/-! ### Conflicts -/

/-- Both sides have changed a configuration file since the last exchange, and not alike. -/
def isConflict (path baseline : String) (current incoming : Text) : Except String Bool := do
  let currentHash ← configHash runtime path current
  let incomingHash ← configHash runtime path incoming
  return currentHash != baseline && incomingHash != baseline && currentHash != incomingHash

def findConflicts (hashes : Members String) :
    List (String × Payload Text) → Inbox Text (List String)
  | [] => return []
  | (path, .config incoming) :: entries => do
      let current ← .attempt (.readFile path)
      let conflict ← .ofExcept (match current, hashes.get path with
        | some current, some baseline => isConflict runtime path baseline current incoming
        | _, _ => .ok false)
      let conflicts ← findConflicts hashes entries
      return if conflict then path :: conflicts else conflicts
  | _ :: entries => findConflicts hashes entries

/-- A decision for each conflict, or none where nobody can decide. -/
def chooseAll (canChoose : Bool) : List String → Inbox Text (Option (Members Choice))
  | [] => return some []
  | path :: paths =>
      if canChoose then do
        let choice ← .attempt (.chooseConflict path)
        let choices ← chooseAll canChoose paths
        return choices.map fun choices => (path, choice) :: choices
      else return none

/-! ### Planning -/

/-- What is left to do for an entry: nothing, its hash noted, or a content to bring in. A written
configuration file is canonical, and every file is noted with a hash. -/
inductive Planned (Text : Type) where
  | noted (path hash : String)
  | config (path : String) (content : Text) (hash : String)
  | ssh (path : String) (content : Text)
  | auth (path : String) (content : Text)
  | logs (path : String) (content : Bytes)

/-- The plan for a configuration file the drive has as `current`. -/
def planConfig (baseline : Option String) (decision : Option Choice) (path : String)
    (current : Option Text) (incoming : Text) : Except String (Planned Text) := do
  let hash ← configHash runtime path incoming
  if decision = some .drive then return .noted path hash
  let currentHash ← current.mapM (configHash runtime path)
  if currentHash = some hash then return .noted path hash
  -- The drive has changed the file and the host has not.
  if currentHash.isSome ∧ baseline.isSome ∧ currentHash ≠ baseline ∧ some hash = baseline then
    return .noted path hash
  return .config path (← canonicalConfig runtime path incoming) hash

/-- Every file is read before the first write. -/
def planEntry (hashes : Members String) (decisions : Members Choice) (path : String) :
    Payload Text → Inbox Text (Planned Text)
  | .logs incoming => do
      let _ ← .attempt (.readLog path)
      return .logs path incoming
  | .auth incoming => do
      let _ ← .attempt (.readFile path)
      return .auth path incoming
  | .ssh incoming => do
      let _ ← .attempt (.readFile path)
      return .ssh path incoming
  | .config incoming => do
      let current ← .attempt (.readFile path)
      .ofExcept (planConfig runtime (hashes.get path) (decisions.get path) path current incoming)

def planEntries (hashes : Members String) (decisions : Members Choice) :
    List (String × Payload Text) → Inbox Text (List (Planned Text))
  | [] => return []
  | (path, payload) :: entries => do
      let planned ← planEntry runtime hashes decisions path payload
      let plan ← planEntries hashes decisions entries
      return planned :: plan

/-! ### Applying the plan -/

/-- The credentials to write: merged with those of the drive if both are JSON. -/
def mergedAuth (path : String) (existing : Option Text) (incoming : Text) : Except String Text :=
  match existing with
  | none => .ok incoming
  | some existing =>
      if endsWith path ".json" then
        match runtime.parse existing, runtime.parse incoming with
        | some old, some new => .ok (runtime.line (mergeAuth tokens none old new))
        | _, _ => .error "SyntaxError"
      else .ok incoming

/-- The attempts left to replace a credential file that nobody else changes meanwhile. -/
def authAttempts (path : String) (incoming : Text) : Nat → Inbox Text (Option Text)
  | 0 => return none
  | attempts + 1 => do
      let owner ← .attempt (.hasOpenOwner path)
      if owner ≠ some false then
        .fail ("credential file is busy or cannot be safely checked: " ++ path)
      else
        let existing ← .attempt (.readFile path)
        let content ← .ofExcept (mergedAuth runtime tokens path existing incoming)
        let renamed ← .attempt (.renameAuth path (existing.map runtime.digest) content)
        if renamed then return some content else authAttempts path incoming attempts

/-- How an application under way stands: the entries applied and the hashes to record. -/
structure Progress where
  applied : Nat
  hashes : Members String

/-- One entry of the plan; `none` when its credentials changed during every attempt. -/
def applyItem (progress : Progress) : Planned Text → Inbox Text (Option Progress)
  | .noted path hash => return some { progress with hashes := progress.hashes.set path hash }
  | .logs path incoming => do
      let current ← .attempt (.readLog path)
      let missing := missingLogLines current incoming
      if missing.isEmpty then return some progress
      else
        .attempt (.appendLog path missing)
        return some { progress with applied := progress.applied + 1 }
  | .auth path incoming => do
      .attempt (.lockAuth path)
      let written ← authAttempts runtime tokens path incoming 3
      return written.map fun content =>
        ⟨progress.applied + 1, progress.hashes.set path (runtime.digest content)⟩
  | .ssh path content => do
      .attempt (.writeFile path content)
      return some ⟨progress.applied + 1, progress.hashes.set path (runtime.digest content)⟩
  | .config path content hash => do
      .attempt (.writeFile path content)
      return some ⟨progress.applied + 1, progress.hashes.set path hash⟩

/-- The plan in its order; the second component tells whether it was carried out. -/
def applyPlan (progress : Progress) : List (Planned Text) → Inbox Text (Progress × Bool)
  | [] => return (progress, true)
  | item :: plan => do
      match ← applyItem runtime tokens progress item with
      | some progress => applyPlan progress plan
      | none => return (progress, false)

def applyInbox (deps : InboxDeps) (bundle : Bundle Text) : Inbox Text InboxResult := do
  let state ← .attempt .readState
  let total := bundle.entries.length
  let last := max state.lastInboxSeq (deps.lastInboxSeq.getD 0)
  let hasAuth := bundle.entries.any fun entry => entry.2.isAuth
  if bundle.seq ≤ last then return ⟨0, total, [], none, last⟩
  else if hasAuth ∧ (implausibleReason deps.clock).isSome then
    return ⟨0, total, [], some "clock is not plausible for credential merge", last⟩
  else
    let conflicts ← findConflicts runtime state.hashes bundle.entries
    if conflicts ≠ [] ∧ deps.isTTY = false then
      return ⟨0, total, conflicts, some "configuration conflicts need a terminal", last⟩
    else
      match ← chooseAll deps.canChoose conflicts with
      | none =>
        return ⟨0, total, conflicts, some "configuration conflict choice is unavailable", last⟩
      | some decisions =>
        let plan ← planEntries runtime state.hashes decisions bundle.entries
        let (progress, complete) ← applyPlan runtime tokens ⟨0, state.hashes⟩ plan
        if complete then
          .attempt (.writeState ⟨max last bundle.seq, progress.hashes⟩)
          return ⟨progress.applied, total - progress.applied, conflicts, none, max last bundle.seq⟩
        else
          return ⟨progress.applied, total - progress.applied, conflicts,
            some "credential changed during restore; retry the inbox", last⟩

end Applying

end AiSwitcher.Live
