/-
This file models the cache of usage breakdowns: requests for a query are files under the hash of
the query, and one drain at a time runs the queries that are requested and caches their results.
The calls that request a refresh come from any number of processes, the drains from one, which
collects for all.

A file is written under a temporary name and moved into place, so one action reads or writes it
whole. Besides what the directories hold, a world knows when calls were made, and since when the
runs whose results are cached; none of this is read by a call.
-/

import AiSwitcher.Library.Crew
import AiSwitcher.Library.Json
import AiSwitcher.Library.Text
import Mathlib.Data.Rat.Floor

namespace AiSwitcher.Usage.Breakdown

open JavaScript Interrupted

/-! ### Queries -/

def DEFAULT_BREAKDOWN_DAYS : ℤ := 30
def MIN_BREAKDOWN_DAYS : ℤ := 1
def MAX_BREAKDOWN_DAYS : ℤ := 365

def TOOL_NAMES : List String :=
  ["claude", "codex", "grok", "kimi", "zai", "ali", "pi", "opencode"]

/-- A query as it is asked for, or read from a file; `days` is none if it is absent or not finite. -/
structure UsageBreakdownRequest where
  tool : Option String
  identity : Option String
  days : Option ℚ

structure NormalizedUsageBreakdownRequest where
  tool : Option String
  identity : Option String
  days : ℤ
  deriving DecidableEq

abbrev Query := NormalizedUsageBreakdownRequest

/-- What the code uses of the standard library: `normalize("NFC")`, `toLowerCase`, and the SHA-256
of a query. -/
structure BreakdownRuntime where
  nfc : String → String
  toLowerCase : String → String
  requestKey : Query → String
  nfc_trim : ∀ text, nfc (trim (nfc text)) = trim (nfc text)
  nfc_tool : ∀ name ∈ TOOL_NAMES, nfc name = name
  toLowerCase_tool : ∀ name ∈ TOOL_NAMES, toLowerCase name = name

variable (runtime : BreakdownRuntime)

def clampBreakdownDays (days : ℚ) : ℤ :=
  if ⌊days⌋ < MIN_BREAKDOWN_DAYS then DEFAULT_BREAKDOWN_DAYS else min MAX_BREAKDOWN_DAYS ⌊days⌋

/-- `/[\u0000-\u001f\u007f]/` -/
def isControl (character : Char) : Bool := character.toNat < 0x20 || character.toNat == 0x7F

def normalizedTool : Option String → Except String (Option String)
  | none => .ok none
  | some tool =>
      let rawTool := runtime.toLowerCase (trim (runtime.nfc tool))
      if rawTool ∈ TOOL_NAMES then .ok (some rawTool) else .error "invalid-breakdown-tool"

def normalizedIdentity : Option String → Except String (Option String)
  | none => .ok none
  | some name =>
      let identity := trim (runtime.nfc name)
      if identity = "" ∨ 256 < unitLength identity ∨ identity.toList.any isControl then
        .error "invalid-breakdown-identity"
      else .ok (some identity)

def normalizeUsageBreakdownRequest (request : UsageBreakdownRequest) : Except String Query := do
  let tool ← normalizedTool runtime request.tool
  let identity ← normalizedIdentity runtime request.identity
  return ⟨tool, identity, clampBreakdownDays (request.days.getD DEFAULT_BREAKDOWN_DAYS)⟩

/-- A query as `JSON.stringify` writes it to a file. -/
def NormalizedUsageBreakdownRequest.stored (query : Query) : UsageBreakdownRequest :=
  ⟨query.tool, query.identity, some query.days⟩

/-! ### Files -/

structure CachedBreakdown (Result : Type) where
  key : String
  query : UsageBreakdownRequest
  results : List Result
  generatedAt : ℤ
  lastSuccessAt : ℤ

structure QueuedRequest where
  key : String
  requestId : Nat
  query : UsageBreakdownRequest
  requestedAt : ℤ

structure RequestStatus where
  key : String
  lastErrorAt : Option ℤ

/-- A request that was read, with its query normalised. -/
structure LoadedRequest where
  requestId : Nat
  query : Query
  deriving DecidableEq

/-- A query is kept only under its own key. -/
def queryFor (key : String) (query : UsageBreakdownRequest) : Option Query :=
  match normalizeUsageBreakdownRequest runtime query with
  | .ok normalized => if runtime.requestKey normalized = key then some normalized else none
  | .error _ => none

/-- A directory; a file whose text is no such record is `none`. -/
abbrev Directory (File : Type) := Members (Option File)

def loadCache {Result : Type} (cache : Directory (CachedBreakdown Result)) (key : String) :
    Option (CachedBreakdown Result) :=
  ((cache.get key).join).filter fun cached => cached.key = key

def loadCacheQuery {Result : Type} (cache : Directory (CachedBreakdown Result)) (key : String) :
    Option Query :=
  (loadCache cache key).bind fun cached => queryFor runtime key cached.query

def loadStatus (status : Directory RequestStatus) (key : String) : Option RequestStatus :=
  ((status.get key).join).filter fun found => found.key = key

def loadRequest (requests : Directory QueuedRequest) (key : String) : Option LoadedRequest :=
  (((requests.get key).join).filter fun request => request.key = key).bind fun request =>
    (queryFor runtime key request.query).map fun query => ⟨request.requestId, query⟩

/-! ### What readers see -/

def USAGE_BREAKDOWN_TTL_MS : ℤ := 15 * 60000

structure UsageBreakdownEnvelope (Result : Type) where
  results : List Result
  generatedAt : Option ℤ
  lastSuccessAt : Option ℤ
  pending : Bool
  stale : Bool
  errorAt : Option ℤ

structure Directories (Result : Type) where
  cache : Directory (CachedBreakdown Result)
  requests : Directory QueuedRequest
  status : Directory RequestStatus

/-- `readUsageBreakdownEnvelope` of a query with this key. -/
def readEnvelope {Result : Type} (dirs : Directories Result) (key : String) (now ttlMs : ℤ) :
    UsageBreakdownEnvelope Result :=
  let cached := loadCache dirs.cache key
  let errorAt := (loadStatus dirs.status key).bind RequestStatus.lastErrorAt
  let pending := dirs.requests.hasKey key
  { results := (cached.map CachedBreakdown.results).getD []
    generatedAt := cached.map CachedBreakdown.generatedAt
    lastSuccessAt := cached.map CachedBreakdown.lastSuccessAt
    pending
    stale := cached.all (fun found => decide (ttlMs < now - found.lastSuccessAt)) || pending ||
      errorAt.isSome
    errorAt }

/-! ### Actions -/

/-- What the collector found for an identity; `sourceError` says that its history could not be read
whole. -/
structure BreakdownResult (Data : Type) where
  sourceError : Bool
  data : Data

inductive BreakdownAction (Data : Type) : Type → Type
  /-- A request for a query creates the directory. -/
  | call (key : String) : BreakdownAction Data Unit
  /-- A request for all known queries lists the cache. -/
  | callKnown : BreakdownAction Data (List String)
  | loadCacheQuery (key : String) : BreakdownAction Data (Option Query)
  | listRequests : BreakdownAction Data (List String)
  | loadRequest (key : String) : BreakdownAction Data (Option LoadedRequest)
  /-- The request file that makes another one unnecessary. -/
  | checkRequest (key : String) : BreakdownAction Data (Option LoadedRequest)
  | writeRequest (key : String) (query : Query) : BreakdownAction Data Unit
  /-- The call returns. -/
  | returned : BreakdownAction Data Unit
  /-- Whether this call is the active drain. -/
  | enterDrain : BreakdownAction Data Bool
  | leaveDrain : BreakdownAction Data Unit
  | listQueued : BreakdownAction Data (List String)
  /-- The drain loads a request, and runs its query from now on. -/
  | startRun (key : String) : BreakdownAction Data (Option LoadedRequest)
  | run (query : Query) : BreakdownAction Data (Option (List (BreakdownResult Data)))
  | writeCache (key : String) (query : Query) (results : List (BreakdownResult Data)) :
      BreakdownAction Data Unit
  | writeStatus (key : String) (failed : Bool) : BreakdownAction Data Unit
  /-- Whether the request file still has this id. -/
  | compareRequest (key : String) (requestId : Nat) : BreakdownAction Data Bool
  | unlinkRequest (key : String) (requestId : Option Nat) : BreakdownAction Data Unit

variable {Data : Type}

abbrev BreakdownCall (Data Result : Type) := Program (BreakdownAction Data) String Result

/-! ### Requesting -/

/-- A request that is queued already is kept, with its id. -/
def enqueue (query : Query) : BreakdownCall Data Unit := do
  let key := runtime.requestKey query
  match ← .perform (.checkRequest key) with
  | some _ => return ()
  | none => .perform (.writeRequest key query)

def requestUsageBreakdownRefresh (input : UsageBreakdownRequest) : BreakdownCall Data Unit :=
  match normalizeUsageBreakdownRequest runtime input with
  | .error message => .fail message
  | .ok query => do
      .perform (.call (runtime.requestKey query))
      enqueue runtime query
      .perform .returned

def loadKnownCached : List String → BreakdownCall Data (List (String × Query))
  | [] => return []
  | key :: keys => do
      let query ← .perform (.loadCacheQuery key)
      let rest ← loadKnownCached keys
      return (query.map fun query => (key, query)).toList ++ rest

def loadKnownRequested : List String → BreakdownCall Data (List (String × Query))
  | [] => return []
  | key :: keys => do
      let request ← .perform (.loadRequest key)
      let rest ← loadKnownRequested keys
      return (request.map fun request => (key, request.query)).toList ++ rest

def requestAll : List (String × Query) → BreakdownCall Data Unit
  | [] => return ()
  | (_, query) :: known =>
      match normalizeUsageBreakdownRequest runtime query.stored with
      | .error message => .fail message
      | .ok query => do
          enqueue runtime query
          requestAll known

/-- The known queries are a map by key: a query that is cached and requested stands once. -/
def requestKnownUsageBreakdownsRefresh : BreakdownCall Data Nat := do
  let cacheNames ← .perform .callKnown
  let cached ← loadKnownCached cacheNames
  let requestNames ← .perform .listRequests
  let requested ← loadKnownRequested requestNames
  let known := Members.spread (Members.entries cached) (Members.entries requested)
  requestAll runtime known
  .perform .returned
  return known.length

/-! ### Draining -/

def removeRequestIfUnchanged (key : String) (requestId : Nat) : BreakdownCall Data Unit := do
  let same ← .perform (.compareRequest key requestId)
  if same then .perform (.unlinkRequest key (some requestId))
  else return ()

/-- Whether the results of a run may be cached. -/
def complete (results : Option (List (BreakdownResult Data))) :
    Option (List (BreakdownResult Data)) :=
  results.filter fun results => !results.any BreakdownResult.sourceError

def drainOne (key : String) : BreakdownCall Data Nat := do
  match ← .perform (.startRun key) with
  | none =>
      .perform (.unlinkRequest key none)
      return 0
  | some request =>
      let results ← .perform (.run request.query)
      match complete results with
      | some results =>
          .perform (.writeCache key request.query results)
          .perform (.writeStatus key false)
          removeRequestIfUnchanged key request.requestId
          return 1
      | none =>
          .perform (.writeStatus key true)
          removeRequestIfUnchanged key request.requestId
          return 0

def drainAll : List String → BreakdownCall Data Nat
  | [] => return 0
  | key :: keys => do
      let one ← drainOne key
      let rest ← drainAll keys
      return one + rest

/-- A call while a drain is active shares its result, which is not followed here. -/
def refreshQueuedUsageBreakdowns : BreakdownCall Data Nat := do
  let isActive ← .perform .enterDrain
  if isActive then
    let names ← .perform .listQueued
    let completed ← drainAll names
    .perform .leaveDrain
    return completed
  else return 0

end AiSwitcher.Usage.Breakdown
