/-
This file models the tables of the browser bindings: the bindings, the tokens of the browser
extensions, and the pairings that a binding and its token come from. The store in memory and
the one in Postgres do the same with them, one statement at a time. Times are milliseconds.
-/

import AiSwitcher.Gateway.Admin

namespace AiSwitcher.Gateway.Browser

open JavaScript

inductive BrowserTarget where
  | identity (identity : String)
  | pool (pool : String)
  deriving DecidableEq

structure BrowserBinding where
  name : String
  target : BrowserTarget
  profileLabel : String
  state : AppState
  createdAt : Int
  lastSeenAt : Option Int
  deriving DecidableEq

structure BrowserPairing where
  code : String
  profileLabel : String
  createdAt : Int
  expiresAt : Int
  pollSecretHash : String
  approvedBinding : Option String
  deriving DecidableEq

/-- The tables; a row is under its own name or code. -/
structure BrowserStore where
  bindings : Members BrowserBinding
  tokens : List TokenRecord
  pairings : Members BrowserPairing
  named : ∀ field ∈ bindings, field.2.name = field.1
  coded : ∀ field ∈ pairings, field.2.code = field.1

inductive BrowserWrite where
  | putBrowserBinding (binding : BrowserBinding)
  | touchBrowserBinding (name : String) (at_ : Int)
  | revokeBrowserBinding (name : String)
  | addBrowserToken (rec : TokenRecord)
  | deleteBrowserTokens (binding : String)
  | putPairing (pairing : BrowserPairing)
  | deletePairing (code : String)
  | deleteExpiredPairings (now : Int)
  deriving DecidableEq

namespace BrowserWrite

/-- Change the row of a name, if there is one. -/
def changeBinding (bindings : Members BrowserBinding) (name : String)
    (change : BrowserBinding → BrowserBinding) : Members BrowserBinding :=
  match bindings.get name with
  | some binding => bindings.set name (change binding)
  | none => bindings

def bindings (before : Members BrowserBinding) : BrowserWrite → Members BrowserBinding
  | .putBrowserBinding binding => before.set binding.name binding
  | .touchBrowserBinding name at_ =>
      changeBinding before name fun binding => { binding with lastSeenAt := some at_ }
  | .revokeBrowserBinding name =>
      changeBinding before name fun binding => { binding with state := .revoked }
  | .addBrowserToken _ | .deleteBrowserTokens _ | .putPairing _ | .deletePairing _
  | .deleteExpiredPairings _ => before

def tokens (before : List TokenRecord) : BrowserWrite → List TokenRecord
  | .addBrowserToken rec => before ++ [rec]
  | .deleteBrowserTokens binding => before.filter fun token => token.app ≠ binding
  | .putBrowserBinding _ | .touchBrowserBinding _ _ | .revokeBrowserBinding _ | .putPairing _
  | .deletePairing _ | .deleteExpiredPairings _ => before

def pairings (before : Members BrowserPairing) : BrowserWrite → Members BrowserPairing
  | .putPairing pairing => before.set pairing.code pairing
  | .deletePairing code => before.delete code
  | .deleteExpiredPairings now =>
      before.filter fun field => (before.get field.1).any fun pairing => now < pairing.expiresAt
  | .putBrowserBinding _ | .touchBrowserBinding _ _ | .revokeBrowserBinding _
  | .addBrowserToken _ | .deleteBrowserTokens _ => before

theorem named_changeBinding {bindings : Members BrowserBinding}
    (named : ∀ field ∈ bindings, field.2.name = field.1) (name : String)
    {change : BrowserBinding → BrowserBinding} (keeps : ∀ binding, (change binding).name = binding.name) :
    ∀ field ∈ changeBinding bindings name change, field.2.name = field.1 := by
  intro field member
  unfold changeBinding at member
  split at member
  next binding isThere =>
    obtain rfl | member := Members.mem_set member
    · exact (keeps binding).trans (named _ (Members.mem_of_get isThere))
    · exact named field member
  next => exact named field member

theorem named_bindings {before : Members BrowserBinding}
    (named : ∀ field ∈ before, field.2.name = field.1) (write : BrowserWrite) :
    ∀ field ∈ write.bindings before, field.2.name = field.1 := by
  cases write with
  | putBrowserBinding binding =>
    intro field member
    obtain rfl | member := Members.mem_set member
    · rfl
    · exact named field member
  | touchBrowserBinding name at_ => exact named_changeBinding named name fun _ => rfl
  | revokeBrowserBinding name => exact named_changeBinding named name fun _ => rfl
  | _ => exact named

theorem coded_pairings {before : Members BrowserPairing}
    (coded : ∀ field ∈ before, field.2.code = field.1) (write : BrowserWrite) :
    ∀ field ∈ write.pairings before, field.2.code = field.1 := by
  cases write with
  | putPairing pairing =>
    intro field member
    obtain rfl | member := Members.mem_set member
    · rfl
    · exact coded field member
  | deletePairing code => exact fun field member => coded field (List.mem_of_mem_filter member)
  | deleteExpiredPairings now => exact fun field member => coded field (List.mem_of_mem_filter member)
  | _ => exact coded

end BrowserWrite

namespace BrowserStore

variable (store : BrowserStore)

def write (write : BrowserWrite) : BrowserStore where
  bindings := write.bindings store.bindings
  tokens := write.tokens store.tokens
  pairings := write.pairings store.pairings
  named := BrowserWrite.named_bindings store.named write
  coded := BrowserWrite.coded_pairings store.coded write

def empty : BrowserStore where
  bindings := []
  tokens := []
  pairings := []
  named := fun _ member => nomatch member
  coded := fun _ member => nomatch member

def getBrowserBinding (name : String) : Option BrowserBinding := store.bindings.get name

def browserTokenByPrefix (tokenPrefix : String) : Option TokenRecord :=
  store.tokens.find? fun token => token.tokenPrefix = tokenPrefix

def getPairing (code : String) : Option BrowserPairing := store.pairings.get code

theorem name_of_getBrowserBinding {store : BrowserStore} {name : String} {binding : BrowserBinding}
    (isThere : store.getBrowserBinding name = some binding) : binding.name = name :=
  store.named _ (Members.mem_of_get isThere)

theorem code_of_getPairing {store : BrowserStore} {code : String} {pairing : BrowserPairing}
    (isThere : store.getPairing code = some pairing) : pairing.code = code :=
  store.coded _ (Members.mem_of_get isThere)

end BrowserStore

end AiSwitcher.Gateway.Browser
