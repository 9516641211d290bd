/-
This file models how a browser extension gets its token. The extension asks for a pairing and
polls it with a secret; an admin approves the pairing, which makes a binding; the next poll
claims the pairing and is answered with a token. A binding can be revoked.

Each request is a sequence of statements on the store, and any other request, and time, may
pass between two of them. A request may fail at any point. The limits on the rate and the size
of requests are left out: a request that they refuse does nothing.
-/

import AiSwitcher.Library.Text
import AiSwitcher.Gateway.Browser.Store

namespace AiSwitcher.Gateway.Browser

open JavaScript

def PAIRING_TTL_MS : Int := 10 * 60000

def MAX_LABEL : Nat := 80

/-- How often a code that is taken is drawn again. -/
def CODE_TRIES : Nat := 5

/-- Hashing, dates, and `String.prototype.toLowerCase`. -/
structure PairingRuntime extends TokenRuntime where
  toLowerCase : List Char → List Char

/-! ### Names of bindings -/

def isLabelChar (char : Char) : Bool :=
  ('a' ≤ char && char ≤ 'z') || ('0' ≤ char && char ≤ '9')

/-- A DNS-1123 label, as for app names. -/
def isBindingName (name : String) : Bool :=
  let chars := name.toList
  chars.length ≤ 63 && chars.all (fun char => isLabelChar char || char = '-') &&
    chars.head?.any isLabelChar && chars.getLast?.any isLabelChar

/-- Every run of other characters becomes one dash. -/
def dashed : Bool → List Char → List Char
  | _, [] => []
  | inRun, char :: rest =>
      if isLabelChar char then char :: dashed false rest
      else if inRun then dashed true rest
      else '-' :: dashed true rest

def trimDashes (chars : List Char) : List Char :=
  (chars.reverse.dropWhile (· = '-')).reverse

def PairingRuntime.slug (runtime : PairingRuntime) (label : String) : String :=
  let dashes := dashed false (runtime.toLowerCase label.toList)
  let chars := trimDashes ((trimDashes (dashes.dropWhile (· = '-'))).take 40)
  if chars = [] then "browser" else .ofList chars

/-! ### The requests -/

/-- What a request does next. `code` is the code that was drawn, `redraws` those that would be
drawn after it. -/
inductive PairStep where
  | prune (label secret code : String) (redraws : List String)
  | draw (label secret code : String) (redraws : List String)
  | drawn (label secret code : String)
  | putPairing (pairing : BrowserPairing) (secret : String)
  | paired (pairing : BrowserPairing) (secret : String)
  | refused (status : Nat) (message : String)
  deriving DecidableEq

/-- `target` is what the check of the target says, `name` the name that was asked for; `next` counts
the names that are tried if none was. -/
inductive ApproveStep where
  | lookUp (code : String) (target : Except String BrowserTarget) (name : Option Json)
  | found (pairing : Option BrowserPairing) (target : Except String BrowserTarget) (name : Option Json)
  | parseTarget (pairing : BrowserPairing) (target : Except String BrowserTarget) (name : Option Json)
  | checkName (pairing : BrowserPairing) (target : BrowserTarget) (name : String) (next : Option Nat)
  | deleteTokens (pairing : BrowserPairing) (binding : BrowserBinding)
  | putBinding (pairing : BrowserPairing) (binding : BrowserBinding)
  | putPairing (pairing : BrowserPairing) (binding : BrowserBinding)
  | approved (pairing : BrowserPairing) (binding : BrowserBinding)
  | refused (status : Nat) (message : String)

/-- `token` is the token that would be generated. -/
inductive PollStep where
  | lookUp (code secret : String) (token : TokenRecord)
  | found (code secret : String) (token : TokenRecord) (pairing : Option BrowserPairing)
  | deletePairing (code message : String)
  | readBinding (pairing : BrowserPairing) (secret : String) (token : TokenRecord) (name : String)
  | claim (pairing : BrowserPairing) (secret : String) (token : TokenRecord) (binding : BrowserBinding)
  | addToken (pairing : BrowserPairing) (secret : String) (token : TokenRecord) (binding : BrowserBinding)
  | delivered (pairing : BrowserPairing) (secret : String) (binding : BrowserBinding) (at_ : Int)
  | answered (status : Nat) (message : String)
  deriving DecidableEq

inductive RevokeStep where
  | lookUp (name : String)
  | revoke (name : String)
  | revoked (name : String)
  | refused (status : Nat) (message : String)
  deriving DecidableEq

/-- A request for a pairing. Its label is checked before anything else. -/
def PairStep.start (label secret code : String) (redraws : List String) : PairStep :=
  if trim label = "" ∨ MAX_LABEL < unitLength label then
    .refused 400 s!"profileLabel is required (1 to {MAX_LABEL} characters)"
  else .prune label secret code (redraws.take CODE_TRIES)

/-! ### The statements that write -/

def PairStep.write (now : Int) : PairStep → Option BrowserWrite
  | .prune _ _ _ _ => some (.deleteExpiredPairings now)
  | .putPairing pairing _ => some (.putPairing pairing)
  | _ => none

def ApproveStep.write : ApproveStep → Option BrowserWrite
  -- Reusing a revoked name: its old tokens must not authenticate the new binding.
  | .deleteTokens _ binding => some (.deleteBrowserTokens binding.name)
  | .putBinding _ binding => some (.putBrowserBinding binding)
  | .putPairing pairing binding =>
      some (.putPairing { pairing with approvedBinding := some binding.name })
  | _ => none

def PollStep.write : PollStep → Option BrowserWrite
  | .deletePairing code _ => some (.deletePairing code)
  -- The pairing is deleted and returned in one statement.
  | .claim pairing _ _ _ => some (.deletePairing pairing.code)
  | .addToken _ _ token binding => some (.addBrowserToken { token with app := binding.name })
  | _ => none

def RevokeStep.write : RevokeStep → Option BrowserWrite
  | .revoke name => some (.revokeBrowserBinding name)
  | _ => none

section Requests

variable (runtime : PairingRuntime) (store : BrowserStore) (now : Int)

/-! ### What a request does after a statement -/

/-- A code that is taken is drawn again, a few times. -/
def redrawn (label secret code : String) (redraws : List String) : PairStep :=
  match store.getPairing code, redraws with
  | some _, redraw :: redraws => .draw label secret redraw redraws
  | _, _ => .drawn label secret code

def PairStep.next : PairStep → PairStep
  | .prune label secret code redraws => .draw label secret code redraws
  | .draw label secret code redraws => redrawn store label secret code redraws
  | .drawn label secret code =>
      .putPairing
        ⟨code, trim label, now, now + PAIRING_TTL_MS, runtime.hashSecret secret.toList, none⟩ secret
  | .putPairing pairing secret => .paired pairing secret
  | .paired pairing secret => .paired pairing secret
  | .refused status message => .refused status message

/-- A name is taken only by an active binding; a revoked one can be reused. -/
def nameTaken (name : String) : Bool :=
  (store.getBrowserBinding name).any fun binding => binding.state = .active

/-- Only a pairing that is there, not expired and not approved is approved. -/
def checkPairing (pairing : Option BrowserPairing) (target : Except String BrowserTarget)
    (name : Option Json) : ApproveStep :=
  match pairing with
  | none => .refused 404 "no such pairing"
  | some pairing =>
      if pairing.expiresAt ≤ now then .refused 410 "pairing expired"
      else if pairing.approvedBinding ≠ none then .refused 409 "pairing already approved"
      else .parseTarget pairing target name

/-- The first name to check: the one that was asked for, or one made from the label. -/
def firstName (pairing : BrowserPairing) (target : Except String BrowserTarget)
    (name : Option Json) : ApproveStep :=
  match target, name with
  | .error message, _ => .refused 400 message
  | .ok target, none => .checkName pairing target (runtime.slug pairing.profileLabel) (some 2)
  | .ok target, some name =>
      match name.asString?.filter isBindingName with
      | some name => .checkName pairing target name none
      | none => .refused 400
          "name must be 1 to 63 lowercase letters, digits or -, start and end with a letter or digit"

/-- A name that is free is used, a name that was asked for and is taken is refused. -/
def checkedName (pairing : BrowserPairing) (target : BrowserTarget) (name : String)
    (next : Option Nat) : ApproveStep :=
  if nameTaken store name then
    match next with
    | none => .refused 409 "a binding with that name exists"
    | some next =>
        .checkName pairing target s!"{runtime.slug pairing.profileLabel}-{next}" (some (next + 1))
  else .deleteTokens pairing ⟨name, target, pairing.profileLabel, .active, now, none⟩

def ApproveStep.next : ApproveStep → ApproveStep
  | .lookUp code target name => .found (store.getPairing code) target name
  | .found pairing target name => checkPairing now pairing target name
  | .parseTarget pairing target name => firstName runtime pairing target name
  | .checkName pairing target name next => checkedName runtime store now pairing target name next
  | .deleteTokens pairing binding => .putBinding pairing binding
  | .putBinding pairing binding => .putPairing pairing binding
  | .putPairing pairing binding => .approved pairing binding
  | .approved pairing binding => .approved pairing binding
  | .refused status message => .refused status message

/-- A wrong secret looks the same as an unknown code. -/
def checkPoll (code secret : String) (token : TokenRecord) (pairing : Option BrowserPairing) :
    PollStep :=
  match pairing with
  | none => .answered 404 "no such pairing"
  | some pairing =>
      if runtime.sameHash pairing.pollSecretHash secret.toList = false then
        .answered 404 "no such pairing"
      else if pairing.expiresAt ≤ now then .deletePairing code "pairing expired"
      else
        match pairing.approvedBinding with
        | none => .answered 202 "pending"
        | some name => .readBinding pairing secret token name

def checkBinding (pairing : BrowserPairing) (secret : String) (token : TokenRecord)
    (binding : Option BrowserBinding) : PollStep :=
  match binding with
  | some binding =>
      if binding.state = .active then .claim pairing secret token binding
      else .deletePairing pairing.code "binding revoked"
  | none => .deletePairing pairing.code "binding revoked"

def PollStep.next : PollStep → PollStep
  | .lookUp code secret token => .found code secret token (store.getPairing code)
  | .found code secret token pairing => checkPoll runtime now code secret token pairing
  | .deletePairing _ message => .answered 410 message
  | .readBinding pairing secret token name =>
      checkBinding pairing secret token (store.getBrowserBinding name)
  | .claim pairing secret token binding =>
      match store.getPairing pairing.code with
      | some _ => .addToken pairing secret token binding
      | none => .answered 404 "no such pairing"
  | .addToken pairing secret _ binding => .delivered pairing secret binding now
  | .delivered pairing secret binding at_ => .delivered pairing secret binding at_
  | .answered status message => .answered status message

def RevokeStep.next : RevokeStep → RevokeStep
  | .lookUp name =>
      match store.getBrowserBinding name with
      | some _ => .revoke name
      | none => .refused 404 "no such binding"
  | .revoke name => .revoked name
  | .revoked name => .revoked name
  | .refused status message => .refused status message

inductive PairingRequest where
  | pair (step : PairStep)
  | approve (step : ApproveStep)
  | poll (step : PollStep)
  | revoke (step : RevokeStep)
  | failed

def PairingRequest.write : PairingRequest → Option BrowserWrite
  | .pair step => step.write now
  | .approve step => step.write
  | .poll step => step.write
  | .revoke step => step.write
  | .failed => none

/-- The request after its statement, which it made on this store. -/
def PairingRequest.next : PairingRequest → PairingRequest
  | .pair step => .pair (step.next runtime store now)
  | .approve step => .approve (step.next runtime store now)
  | .poll step => .poll (step.next runtime store now)
  | .revoke step => .revoke (step.next store)
  | .failed => .failed

/-- A request whose work is done. -/
def PairingRequest.isDone : PairingRequest → Bool
  | .pair (.paired _ _) | .approve (.approved _ _) | .poll (.delivered _ _ _ _) => true
  | _ => false

end Requests

/-! ### Runs -/

/-- The requests so far, each with what it does next or what it ended with. `active` are the
bindings that were put and not revoked since, each with the code of its pairing. -/
structure PairingRun where
  store : BrowserStore
  now : Int
  requests : List PairingRequest
  active : List (String × String)

inductive PairingEvent where
  | pair (label secret code : String) (redraws : List String)
  | approve (code : String) (target : Except String BrowserTarget) (name : Option Json)
  | poll (code secret : String) (token : TokenRecord)
  | revoke (name : String)
  | proceed (request : Nat)
  | fail (request : Nat)
  | wait (ms : Nat)

namespace PairingRun

def new (now : Int) : PairingRun := ⟨.empty, now, [], []⟩

/-- The bindings that are active after a statement of a request. -/
def activeAfter (active : List (String × String)) : PairingRequest → List (String × String)
  | .approve (.putBinding pairing binding) => (pairing.code, binding.name) :: active
  | .revoke (.revoke name) => active.filter fun entry => entry.2 ≠ name
  | _ => active

def receive (run : PairingRun) (request : PairingRequest) : PairingRun :=
  { run with requests := run.requests ++ [request] }

/-- A request makes its next statement. -/
def proceed (runtime : PairingRuntime) (run : PairingRun) (index : Nat) : PairingRun :=
  match run.requests[index]? with
  | none => run
  | some request =>
      { run with
        store := ((request.write run.now).map run.store.write).getD run.store
        requests := run.requests.set index (request.next runtime run.store run.now)
        active := activeAfter run.active request }

/-- A request that is not answered yet fails. -/
def fail (run : PairingRun) (index : Nat) : PairingRun :=
  match run.requests[index]? with
  | none => run
  | some request =>
      if request.isDone then run else { run with requests := run.requests.set index .failed }

def step (runtime : PairingRuntime) (run : PairingRun) : PairingEvent → PairingRun
  | .pair label secret code redraws => run.receive (.pair (.start label secret code redraws))
  | .approve code target name => run.receive (.approve (.lookUp code target name))
  | .poll code secret token => run.receive (.poll (.lookUp code secret token))
  | .revoke name => run.receive (.revoke (.lookUp name))
  | .proceed index => run.proceed runtime index
  | .fail index => run.fail index
  | .wait ms => { run with now := run.now + ms }

def runs (runtime : PairingRuntime) (run : PairingRun) (events : List PairingEvent) : PairingRun :=
  events.foldl (step runtime) run

end PairingRun

/-- The code whose pairing a request has claimed, for a token that it delivers. -/
def PairingRequest.claims? : PairingRequest → Option String
  | .poll (.addToken pairing _ _ _) | .poll (.delivered pairing _ _ _) => some pairing.code
  | _ => none

/-! ### Runs in which no two requests meet -/

/-- What a statement may not do: a pairing is put under a code that no poll has claimed, a binding under
a name that is not active, and a token is added before its pairing expires. -/
def PairingRequest.InTime (run : PairingRun) : PairingRequest → Prop
  | .pair (.putPairing pairing _) | .approve (.putPairing pairing _) =>
      ∀ other ∈ run.requests, other.claims? ≠ some pairing.code
  | .approve (.putBinding _ binding) => nameTaken run.store binding.name = false
  | .poll (.addToken pairing _ _ _) => run.now < pairing.expiresAt
  | _ => True

def PairingRun.Careful (run : PairingRun) : PairingEvent → Prop
  | .proceed index => ∀ request ∈ run.requests[index]?, request.InTime run
  | _ => True

def PairingRun.CarefulRun (runtime : PairingRuntime) : PairingRun → List PairingEvent → Prop
  | _, [] => True
  | run, event :: events =>
      run.Careful event ∧ CarefulRun runtime (run.step runtime event) events

instance (run : PairingRun) (request : PairingRequest) : Decidable (request.InTime run) := by
  unfold PairingRequest.InTime
  split <;> infer_instance

instance (run : PairingRun) : (event : PairingEvent) → Decidable (run.Careful event)
  | .proceed index =>
      inferInstanceAs (Decidable (∀ request ∈ run.requests[index]?, request.InTime run))
  | .pair _ _ _ _ | .approve _ _ _ | .poll _ _ _ | .revoke _ | .fail _ | .wait _ => .isTrue trivial

instance instDecidableCarefulRun (runtime : PairingRuntime) : (run : PairingRun) → (events : List PairingEvent) →
    Decidable (run.CarefulRun runtime events)
  | _, [] => .isTrue trivial
  | run, event :: events =>
      have : Decidable (PairingRun.CarefulRun runtime (run.step runtime event) events) :=
        instDecidableCarefulRun runtime (run.step runtime event) events
      inferInstanceAs (Decidable (_ ∧ _))

end AiSwitcher.Gateway.Browser
