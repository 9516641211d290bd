/-
This file models the hub that relays the calls of agents to the browser extensions: the frames it
exchanges with them, and its operations on its sockets, its pending calls and its timers. An
operation runs to completion. What the hub does to its surroundings is the list of its effects.

The clock reaches the hub only through the events of its timers and the time of a call; the
metrics are left out.
-/

import AiSwitcher.Library.Text
import AiSwitcher.Gateway.Browser.Store

namespace AiSwitcher.Gateway.Browser

open JavaScript

/-! ### Frames -/

inductive BrowserTool where
  | listBrowsers
  | tabsContext
  | tabsCreate
  | adoptTab
  | navigate
  | screenshot
  | readPage
  | find
  | click
  | type
  | key
  | scroll
  | hover
  | formInput
  | javascript
  | getConsole
  | getNetwork
  | wait
  | resize
  | closeTab
  deriving DecidableEq

inductive BrowserErrorCode where
  | pausedByUser
  | stoppedByUser
  | noBrowser
  | ambiguousBrowser
  | forbiddenTab
  | tabClosed
  | tabHidden
  | timeout
  | browserDisconnected
  | badArgs
  | internal
  deriving DecidableEq

def BROWSER_ERROR_CODES : Members BrowserErrorCode :=
  [("paused_by_user", .pausedByUser), ("stopped_by_user", .stoppedByUser), ("no_browser", .noBrowser),
    ("ambiguous_browser", .ambiguousBrowser), ("forbidden_tab", .forbiddenTab),
    ("tab_closed", .tabClosed), ("tab_hidden", .tabHidden), ("timeout", .timeout),
    ("browser_disconnected", .browserDisconnected), ("bad_args", .badArgs), ("internal", .internal)]

def MAX_ERROR_MESSAGE : Nat := 1000

structure Session where
  id : String
  identity : String
  label : String
  deriving DecidableEq

structure CallRequest where
  id : String
  session : Session
  tool : BrowserTool
  args : Object
  deriving DecidableEq

inductive ImageType where
  | jpeg
  | png
  deriving DecidableEq

inductive Content where
  | text (text : String)
  | image (mimeType : ImageType) (data : String)
  deriving DecidableEq

inductive CallResult where
  | ok (id : String) (content : List Content)
  | error (id : String) (error : BrowserErrorCode) (message : String)
  deriving DecidableEq

def CallResult.id : CallResult → String
  | .ok id _ => id
  | .error id _ _ => id

inductive GatewayToExt where
  | welcome (binding : String) (target : BrowserTarget)
  | pong
  | call (req : CallRequest)
  | abort (id : String)
  deriving DecidableEq

def sanitiseContent (value : Json) : Option Content :=
  value.asObject?.bind fun item =>
    if item.get "type" = some (.str "text") then
      ((item.get "text").bind Json.asString?).map .text
    else if item.get "type" = some (.str "image") then
      match (item.get "mimeType").bind Json.asString?, (item.get "data").bind Json.asString? with
      | some "image/jpeg", some data => some (.image .jpeg data)
      | some "image/png", some data => some (.image .png data)
      | _, _ => none
    else none

/-- A well-formed result from untrusted input. Unknown error codes become internal. -/
def sanitiseResult (value : Option Json) : Option CallResult :=
  match value.bind Json.asObject? with
  | none => none
  | some result =>
      match result.get "id", result.get "ok" with
      | some (.str id), some (.bool true) =>
          match (result.get "content").bind Json.asArray? with
          | some items => (items.mapM sanitiseContent).map (.ok id)
          | none => none
      | some (.str id), some (.bool false) =>
          let error := ((result.get "error").bind Json.asString?).bind BROWSER_ERROR_CODES.get
          let message := ((result.get "message").bind Json.asString?).getD ""
          some (.error id (error.getD .internal) (sliceTo MAX_ERROR_MESSAGE message))
      | _, _ => none

/-! ### The state of the hub -/

/-- A socket, by its place among the sockets that were opened. -/
abbrev Socket := Nat

/-- A binding as it was read, with the number of bindings that had been put under its name: a
revoked name can be given to another binding. -/
structure Held where
  binding : BrowserBinding
  approval : Nat
  deriving DecidableEq

/-- Which binding this is. -/
def Held.key (held : Held) : String × Nat := (held.binding.name, held.approval)

/-- What the check of a token ends with. -/
inductive Checked where
  | failed
  | unauthorised
  | binding (held : Held)
  deriving DecidableEq

structure Conn where
  ws : Socket
  binding : Option Held
  paused : Bool
  authenticating : Bool
  deriving DecidableEq

inductive Timer where
  | hello (ws : Socket)
  | silence (ws : Socket)
  | call (id : String) (ws : Socket) (timeoutMs : Nat)
  deriving DecidableEq

structure Pending where
  ws : Socket
  timer : Timer
  deriving DecidableEq

inductive Effect where
  | send (ws : Socket) (frame : GatewayToExt)
  | close (ws : Socket) (code : Nat) (reason : String)
  | resolve (id : String) (result : CallResult)
  deriving DecidableEq

/-- What `send` of a socket does: 0 is a frame that was dropped, -1 backpressure. -/
inductive SendOutcome where
  | sent
  | dropped
  | backpressure
  | thrown
  deriving DecidableEq

def SESSION_TTL_MS : Int := 10 * 60000

/-- The hub with the timers that are running and its effects, oldest first. -/
structure BrowserHub where
  conns : List Conn
  byBinding : Members Socket
  pending : Members Pending
  sessions : Members Int
  timers : List Timer
  effects : List Effect
  deriving DecidableEq

namespace BrowserHub

def new : BrowserHub := ⟨[], [], [], [], [], []⟩

variable (hub : BrowserHub)

def conn? (ws : Socket) : Option Conn := hub.conns.find? fun conn => conn.ws = ws

theorem ws_of_conn? {hub : BrowserHub} {ws : Socket} {conn : Conn}
    (isConn : hub.conn? ws = some conn) : conn.ws = ws := by
  have found := List.find?_some isConn
  exact of_decide_eq_true found

/-- Change the connection of a socket. -/
def update (ws : Socket) (change : Conn → Conn) : BrowserHub :=
  { hub with conns := hub.conns.map fun conn => if conn.ws = ws then change conn else conn }

def clearTimeout (timer : Timer) : BrowserHub :=
  { hub with timers := hub.timers.filter fun other => other ≠ timer }

def setTimeout (timer : Timer) : BrowserHub := { hub with timers := hub.timers ++ [timer] }

def send (ws : Socket) (frame : GatewayToExt) : BrowserHub :=
  { hub with effects := hub.effects ++ [.send ws frame] }

/-! ### The operations -/

def settle (id : String) (result : CallResult) : BrowserHub :=
  match hub.pending.get id with
  | none => hub
  | some pending =>
      { hub.clearTimeout pending.timer with
        pending := hub.pending.delete id
        effects := hub.effects ++ [.resolve id result] }

def disconnected (id : String) : CallResult :=
  .error id .browserDisconnected "The browser disconnected during the call."

/-- The pending calls of a socket. -/
def callsOf (ws : Socket) : List String :=
  (hub.pending.filter fun field =>
    (hub.pending.get field.1).any fun pending => pending.ws = ws).map Prod.fst

/-- A socket without its timers and its registration. -/
def forget (conn : Conn) : BrowserHub :=
  { (hub.clearTimeout (.hello conn.ws)).clearTimeout (.silence conn.ws) with
    conns := hub.conns.filter fun other => other.ws ≠ conn.ws
    byBinding :=
      match conn.binding with
      | some held =>
          if hub.byBinding.get held.binding.name = some conn.ws then
            hub.byBinding.delete held.binding.name
          else hub.byBinding
      | none => hub.byBinding }

def detach (ws : Socket) : BrowserHub :=
  match hub.conn? ws with
  | none => hub
  | some conn =>
      (hub.callsOf ws).foldl (fun hub id => hub.settle id (disconnected id)) (hub.forget conn)

def drop (ws : Socket) (code : Nat) (reason : String) : BrowserHub :=
  { hub.detach ws with effects := (hub.detach ws).effects ++ [.close ws code reason] }

def touch (ws : Socket) : BrowserHub :=
  (hub.clearTimeout (.silence ws)).setTimeout (.silence ws)

/-- Socket opened: it must send `hello` before the timeout. -/
def open_ (ws : Socket) : BrowserHub :=
  { hub.setTimeout (.hello ws) with
    conns := hub.conns ++ [⟨ws, none, false, false⟩] }

/-- Binds an authenticated socket. A previous socket of the same binding is closed. -/
def attach (ws : Socket) (held : Held) : BrowserHub :=
  let present :=
    match hub.conn? ws with
    | some _ => hub
    | none => { hub with conns := hub.conns ++ [Conn.mk ws none false false] }
  let awaited := present.clearTimeout (.hello ws)
  let alone :=
    match awaited.byBinding.get held.binding.name with
    | some old => if old = ws then awaited else awaited.drop old 4409 "replaced by a newer connection"
    | none => awaited
  let bound := alone.update ws fun conn => { conn with binding := some held }
  BrowserHub.touch { bound with byBinding := bound.byBinding.set held.binding.name ws } ws

/-- The first frame of a socket is a `hello`, with the token to check and whether it is paused.
While the token is being checked nothing else is processed. -/
def greet (conn : Conn) (kind : String) (msg : Object) : BrowserHub × Option (String × Bool) :=
  if conn.authenticating then (hub, none)
  else
    match (msg.get "token").bind Json.asString? with
    | some token =>
        if kind = "hello" then
          (hub.update conn.ws fun conn => { conn with authenticating := true },
            some (token, msg.get "paused" = some (.bool true)))
        else (hub.drop conn.ws 4401 "hello required", none)
    | none => (hub.drop conn.ws 4401 "hello required", none)

/-- A later frame of a socket. -/
def receive (ws : Socket) (kind : String) (msg : Object) : BrowserHub :=
  match kind with
  | "ping" => hub.send ws .pong
  | "state" => hub.update ws fun conn => { conn with paused := msg.get "paused" = some (.bool true) }
  | "result" =>
      match sanitiseResult (msg.get "result") with
      | none => hub
      | some result =>
          match hub.pending.get result.id with
          | some pending => if pending.ws = ws then hub.settle result.id result else hub
          | none => hub
  | _ => hub

/-- A frame of a socket, `none` if it is not JSON. A `hello` leaves a token to check. -/
def message (ws : Socket) (frame : Option Json) : BrowserHub × Option (String × Bool) :=
  match hub.conn? ws with
  | none => (hub, none)
  | some conn =>
      match frame.bind Json.asObject? with
      | none => (hub.drop ws 4400 "bad message", none)
      | some msg =>
          match (msg.get "t").bind Json.asString? with
          | none => (hub.drop ws 4400 "bad message", none)
          | some kind =>
              match conn.binding with
              | none => hub.greet conn kind msg
              | some _ => ((hub.touch ws).receive ws kind msg, none)

/-- The token of a `hello` was checked. -/
def welcome (ws : Socket) (paused : Bool) : Checked → BrowserHub
  | .failed => hub.drop ws 1011 "auth error"
  | .unauthorised => hub.drop ws 4401 "unauthorised"
  | .binding held =>
      match hub.conn? ws with
      | none => hub
      | some _ =>
          let checked := hub.update ws fun conn => { conn with paused := paused, authenticating := false }
          (checked.attach ws held).send ws (.welcome held.binding.name held.binding.target)

/-- Gives up on a call the agent no longer waits for. -/
def abort (id : String) : BrowserHub :=
  match hub.pending.get id with
  | none => hub
  | some pending =>
      (hub.send pending.ws (.abort id)).settle id (.error id .timeout "The caller went away.")

/-- The distinct agent sessions that called within the last ten minutes are kept. -/
def activeSessions (now : Int) : BrowserHub :=
  { hub with sessions := hub.sessions.filter fun field =>
      (hub.sessions.get field.1).any fun at_ => now - SESSION_TTL_MS ≤ at_ }

/-- A result that is there at once. -/
def answer (id : String) (result : CallResult) : BrowserHub :=
  { hub with effects := hub.effects ++ [.resolve id result] }

def call (binding : String) (req : CallRequest) (timeoutMs : Nat) (started : Int)
    (outcome : SendOutcome) : BrowserHub :=
  let counted := { hub.activeSessions started with
    sessions := (hub.activeSessions started).sessions.set req.session.id started }
  match (hub.byBinding.get binding).bind hub.conn? with
  | none => counted.answer req.id (.error req.id .noBrowser "That browser is not connected.")
  | some conn =>
      if conn.paused then
        counted.answer req.id (.error req.id .pausedByUser "The user paused browser control.")
      else
        let timer : Timer := .call req.id conn.ws timeoutMs
        let waiting := { counted.setTimeout timer with
          pending := counted.pending.set req.id ⟨conn.ws, timer⟩ }
        let asked := waiting.send conn.ws (.call req)
        if outcome = .sent then asked
        else asked.settle req.id
          (.error req.id .browserDisconnected "The browser connection failed.")

/-- Closes the live socket of a revoked binding. -/
def revoke (binding : String) : BrowserHub :=
  match hub.byBinding.get binding with
  | some ws => hub.drop ws 4401 "binding revoked"
  | none => hub

def closeAll (code : Nat) : BrowserHub :=
  (hub.conns.map Conn.ws).foldl (fun hub ws => hub.drop ws code "service restart") hub

/-- A timer that is running goes off. -/
def fire (timer : Timer) : BrowserHub :=
  if timer ∈ hub.timers then
    match timer with
    | .hello ws => (hub.clearTimeout timer).drop ws 4408 "hello timeout"
    | .silence ws => (hub.clearTimeout timer).drop ws 4408 "silent"
    | .call id ws timeoutMs =>
        ((hub.clearTimeout timer).send ws (.abort id)).settle id
          (.error id .timeout s!"No result within {(timeoutMs + 500) / 1000} s.")
  else hub

end BrowserHub

end AiSwitcher.Gateway.Browser
