/-
This file models the hub as the gateway runs it. The token of a `hello` is checked with reads of
the store, one answer at a time, and any other event may come between two of them. A
binding is revoked first in the store, and then in the hub.
-/

import AiSwitcher.Gateway.Browser.Hub

namespace AiSwitcher.Gateway.Browser

open JavaScript

/-! ### The check of a token -/

/-- What the check of a token does next. -/
inductive Checking where
  | readToken (tokenPrefix secret : List Char)
  | readBinding (name : String)
  | touch (held : Held)
  | checked (checked : Checked)
  deriving DecidableEq

/-- A `hello` whose token is being checked. -/
structure Hello where
  ws : Socket
  paused : Bool
  checking : Checking
  deriving DecidableEq

def Checking.start (token : String) : Checking :=
  match parseToken token with
  | some (tokenPrefix, secret) => .readToken tokenPrefix secret
  | none => .checked .unauthorised

/-- The store has no such token for the secret, or says whose it is. -/
def tokenRead (runtime : TokenRuntime) (rec : Option TokenRecord) (secret : List Char) : Checking :=
  match rec with
  | some rec =>
      if runtime.sameHash rec.hash secret then .readBinding rec.app else .checked .unauthorised
  | none => .checked .unauthorised

/-- Only an active binding is attached. -/
def bindingRead (binding : Option BrowserBinding) (approval : Nat) : Checking :=
  match binding with
  | some binding =>
      if binding.state = .active then .touch ⟨binding, approval⟩ else .checked .unauthorised
  | none => .checked .unauthorised

/-! ### A running hub -/

/-- The hub of a gateway with its store. `approved` are the names of the bindings that were
put so far; `revoking` are the bindings whose revocation is in the store and not yet in the
hub, `revoked` those whose revocation is in both; `calls` are the ids of the calls. -/
structure Relay where
  hub : BrowserHub
  store : BrowserStore
  hellos : List Hello
  opened : Nat
  approved : List String
  revoking : List (String × Nat)
  revoked : List (String × Nat)
  calls : List String

inductive RelayEvent where
  | open_
  | message (ws : Socket) (frame : Option Json)
  | proceed (hello : Nat) (now : Int)
  | fail (hello : Nat)
  | close (ws : Socket)
  | call (binding : String) (req : CallRequest) (timeoutMs : Nat) (started : Int)
      (outcome : SendOutcome)
  | abort (id : String)
  | fire (timer : Timer)
  | store (write : BrowserWrite)
  | revokeStored (name : String)
  | revokeHub (request : Nat)
  | closeAll (code : Nat)

namespace Relay

def new (store : BrowserStore) : Relay := ⟨.new, store, [], 0, [], [], [], []⟩

/-- How many bindings were put under a name: which binding the name now stands for. -/
def approval (relay : Relay) (name : String) : Nat := relay.approved.count name

/-- A frame of a socket; the check of a `hello` begins. -/
def message (relay : Relay) (ws : Socket) (frame : Option Json) : Relay :=
  match relay.hub.message ws frame with
  | (hub, some (token, paused)) =>
      { relay with hub := hub, hellos := relay.hellos ++ [⟨ws, paused, .start token⟩] }
  | (hub, none) => { relay with hub := hub }

/-- The check of a `hello` goes on to this. -/
def goOn (relay : Relay) (index : Nat) (hello : Hello) (checking : Checking) : Relay :=
  { relay with hellos := relay.hellos.set index { hello with checking := checking } }

/-- The store answers the check of a `hello`, or the hub learns what the check has ended with. -/
def proceed (relay : Relay) (runtime : TokenRuntime) (index : Nat) (now : Int) : Relay :=
  match relay.hellos[index]? with
  | none => relay
  | some hello =>
      match hello.checking with
      | .readToken tokenPrefix secret =>
          relay.goOn index hello
            (tokenRead runtime (relay.store.browserTokenByPrefix (.ofList tokenPrefix)) secret)
      | .readBinding name =>
          relay.goOn index hello
            (bindingRead (relay.store.getBrowserBinding name) (relay.approval name))
      | .touch held =>
          { relay with store := relay.store.write (.touchBrowserBinding held.binding.name now) }.goOn
            index hello (.checked (.binding held))
      | .checked checked =>
          { relay with
            hub := relay.hub.welcome hello.ws hello.paused checked
            hellos := relay.hellos.eraseIdx index }

/-- The store fails: a read fails the check, that the binding was not touched does not matter. -/
def fail (relay : Relay) (index : Nat) : Relay :=
  match relay.hellos[index]? with
  | none => relay
  | some hello =>
      match hello.checking with
      | .readToken _ _ | .readBinding _ => relay.goOn index hello (.checked .failed)
      | .touch held => relay.goOn index hello (.checked (.binding held))
      | .checked _ => relay

/-- A step. Every call has an id of its own, made by `crypto.randomUUID`. -/
def step (runtime : TokenRuntime) (relay : Relay) : RelayEvent → Relay
  | .open_ => { relay with hub := relay.hub.open_ relay.opened, opened := relay.opened + 1 }
  | .message ws frame => relay.message ws frame
  | .proceed hello now => relay.proceed runtime hello now
  | .fail hello => relay.fail hello
  | .close ws => { relay with hub := relay.hub.detach ws }
  | .call binding req timeoutMs started outcome =>
      if req.id ∈ relay.calls then relay
      else
        { relay with
          hub := relay.hub.call binding req timeoutMs started outcome
          calls := req.id :: relay.calls }
  | .abort id => { relay with hub := relay.hub.abort id }
  | .fire timer => { relay with hub := relay.hub.fire timer }
  | .store write =>
      { relay with
        store := relay.store.write write
        approved :=
          match write with
          | .putBrowserBinding binding => binding.name :: relay.approved
          | _ => relay.approved }
  | .revokeStored name =>
      match relay.store.getBrowserBinding name with
      | some _ =>
          { relay with
            store := relay.store.write (.revokeBrowserBinding name)
            revoking := relay.revoking ++ [(name, relay.approval name)] }
      | none => relay
  | .revokeHub request =>
      match relay.revoking[request]? with
      | some key =>
          { relay with
            hub := relay.hub.revoke key.1
            revoking := relay.revoking.eraseIdx request
            revoked := key :: relay.revoked }
      | none => relay
  | .closeAll code => { relay with hub := relay.hub.closeAll code }

def runs (runtime : TokenRuntime) (relay : Relay) (events : List RelayEvent) : Relay :=
  events.foldl (step runtime) relay

/-! ### Runs in which no check outlives a revocation -/

/-- What a step may not do: a binding that was read as active is not attached, to a socket that is
still open, after its revocation has reached the hub. -/
def Careful (relay : Relay) : RelayEvent → Prop
  | .proceed index _ => ∀ hello held, relay.hellos[index]? = some hello →
      hello.checking = .checked (.binding held) → (relay.hub.conn? hello.ws).isSome = true →
        held.key ∉ relay.revoked
  | _ => True

def CarefulRun (runtime : TokenRuntime) : Relay → List RelayEvent → Prop
  | _, [] => True
  | relay, event :: events =>
      relay.Careful event ∧ CarefulRun runtime (relay.step runtime event) events

end Relay

end AiSwitcher.Gateway.Browser
