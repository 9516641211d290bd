/-
This file proves that the calls of agents stay with the browser they were made for: in every run each
call is settled once, only the socket that a request was sent to gives it a result, and a
binding has at most one socket.

A revocation closes the socket that is attached when it reaches the hub. The check of a token
that has read the binding before is not stopped by it, and attaches its socket afterwards. In
runs in which no check outlives a revocation, no socket is attached for a revoked binding and
no call is sent for it.
-/

import AiSwitcher.Gateway.Browser.Relay
import AiSwitcher.Gateway.Browser.Settling
import AiSwitcher.Gateway.Browser.Registration

namespace AiSwitcher.Gateway.Browser

open JavaScript BrowserHub Relay

variable {runtime : TokenRuntime} {relay : Relay}

/-! ### The sockets and calls of a running hub -/

/-- A socket whose token is being checked is not attached, and no other check is under way for it. -/
structure RelaySound (relay : Relay) : Prop where
  accounts : relay.hub.Accounts relay.calls
  distinct : relay.calls.Nodup
  registered : relay.hub.Registered
  opened : ∀ ws conn, relay.hub.conn? ws = some conn → ws < relay.opened
  awaited : ∀ hello ∈ relay.hellos, hello.ws < relay.opened ∧
    ∀ conn, relay.hub.conn? hello.ws = some conn → conn.binding = none ∧ conn.authenticating = true
  apart : (relay.hellos.map Hello.ws).Nodup

theorem relaySound_new (store : BrowserStore) : RelaySound (Relay.new store) where
  accounts := accounts_new
  distinct := List.nodup_nil
  registered := registered_new
  opened := fun _ _ isConn => nomatch isConn
  awaited := fun _ member => nomatch member
  apart := List.nodup_nil

/-- An operation of the hub that attaches no socket. -/
theorem RelaySound.sheds (sound : RelaySound relay) {hub : BrowserHub} {calls : List String}
    (accounts : hub.Accounts calls) (distinct : calls.Nodup) (sheds : Sheds relay.hub hub) :
    RelaySound { relay with hub := hub, calls := calls } where
  accounts := accounts
  distinct := distinct
  registered := sheds.registered sound.registered
  opened := by
    intro ws conn isConn
    obtain ⟨was, isWas, -⟩ := sheds.conns ws conn isConn
    exact sound.opened ws was isWas
  awaited := by
    intro hello member
    refine ⟨(sound.awaited hello member).1, fun conn isConn => ?_⟩
    obtain ⟨was, isWas, binding, authenticating⟩ := sheds.conns hello.ws conn isConn
    rw [binding, authenticating]
    exact (sound.awaited hello member).2 was isWas
  apart := sound.apart

theorem RelaySound.open_ (sound : RelaySound relay) :
    RelaySound { relay with hub := relay.hub.open_ relay.opened, opened := relay.opened + 1 } where
  accounts := sound.accounts.open_ _
  distinct := sound.distinct
  registered := registered_open_ sound.registered _
  opened := by
    intro ws conn isConn
    rw [conn?_open_] at isConn
    obtain was | ⟨-, added⟩ := Option.or_eq_some_iff.mp isConn
    · exact Nat.lt_succ_of_lt (sound.opened ws conn was)
    · split at added
      next same => exact Nat.lt_succ_of_le same.le
      next => cases added
  awaited := by
    intro hello member
    obtain ⟨less, unbound⟩ := sound.awaited hello member
    refine ⟨Nat.lt_succ_of_lt less, fun conn isConn => unbound conn ?_⟩
    rw [conn?_open_, if_neg less.ne, Option.or_none] at isConn
    exact isConn
  apart := sound.apart

theorem RelaySound.message (sound : RelaySound relay) (ws : Socket) (frame : Option Json) :
    RelaySound (relay.message ws frame) := by
  have accounts := sound.accounts.message ws frame
  unfold Relay.message
  obtain ⟨isNone, sheds⟩ | ⟨conn, ⟨token, paused⟩, isConn, unbound, idle, same⟩ :=
    message_cases  ws frame
  · split
    next isMessage =>
      rw [isMessage] at isNone
      cases isNone
    next hub isMessage =>
      rw [isMessage] at accounts sheds
      exact sound.sheds accounts sound.distinct sheds
  · rw [same] at accounts ⊢
    let change : Conn → Conn := fun conn => { conn with authenticating := true }
    have conns (other : Socket) : (relay.hub.update ws change).conn? other = _ :=
      conn?_update ws change (fun _ => rfl) other
    -- No check is under way for a socket that is not authenticating.
    have free : ∀ hello ∈ relay.hellos, hello.ws ≠ ws := by
      rintro hello member rfl
      have isAwaited := ((sound.awaited hello member).2 conn isConn).2
      rw [idle] at isAwaited
      cases isAwaited
    refine ⟨accounts, sound.distinct, registered_update sound.registered ws fun _ => ⟨rfl, rfl⟩,
      fun other conn' isOther => ?_, fun hello member => ?_, ?_⟩
    · rw [conns] at isOther
      obtain ⟨was, isWas, -⟩ := Option.map_eq_some_iff.mp isOther
      exact sound.opened other was isWas
    · obtain member | member := List.mem_append.mp member
      · obtain ⟨less, isAwaited⟩ := sound.awaited hello member
        refine ⟨less, fun conn' isOther => ?_⟩
        rw [conns] at isOther
        obtain ⟨was, isWas, rfl⟩ := Option.map_eq_some_iff.mp isOther
        rw [if_neg (ws_of_conn? isWas ▸ free hello member)]
        exact isAwaited was isWas
      · obtain rfl := List.mem_singleton.mp member
        refine ⟨sound.opened ws conn isConn, fun conn' isOther => ?_⟩
        rw [conns, isConn, Option.map_some, if_pos (ws_of_conn? isConn)] at isOther
        obtain rfl := Option.some.inj isOther
        exact ⟨unbound, rfl⟩
    · rw [List.map_append, List.nodup_append]
      refine ⟨sound.apart, List.nodup_singleton _, ?_⟩
      rintro first isFirst second isSecond rfl
      obtain ⟨hello, member, rfl⟩ := List.mem_map.mp isFirst
      exact free hello member (List.mem_singleton.mp isSecond)

theorem RelaySound.goOn (sound : RelaySound relay) {index : Nat} {hello : Hello}
    (isHello : relay.hellos[index]? = some hello) (checking : Checking) :
    RelaySound (relay.goOn index hello checking) := by
  refine { sound with awaited := fun other member => ?_, apart := ?_ }
  · obtain member | rfl := List.mem_or_eq_of_mem_set member
    · exact sound.awaited other member
    · exact sound.awaited hello (List.mem_of_getElem? isHello)
  · have same : (relay.goOn index hello checking).hellos.map Hello.ws = relay.hellos.map Hello.ws := by
      have isWs : (relay.hellos.map Hello.ws)[index]? = some hello.ws := by
        rw [List.getElem?_map, isHello]
        rfl
      obtain ⟨less, isSame⟩ := List.getElem?_eq_some_iff.mp isWs
      rw [Relay.goOn, List.map_set, ← isSame, List.set_getElem_self]
    rw [same]
    exact sound.apart

/-- The check of a token has ended. -/
theorem RelaySound.welcome (sound : RelaySound relay) {index : Nat} {hello : Hello}
    (isHello : relay.hellos[index]? = some hello) (checked : Checked) :
    RelaySound { relay with
      hub := relay.hub.welcome hello.ws hello.paused checked
      hellos := relay.hellos.eraseIdx index } := by
  obtain ⟨less, isAwaited⟩ := sound.awaited hello (List.mem_of_getElem? isHello)
  obtain ⟨registered, conns⟩ := registered_welcome sound.registered
    (fun conn isConn => (isAwaited conn isConn).1) hello.paused checked
  refine ⟨sound.accounts.welcome _ _ _, sound.distinct, registered, fun ws conn isConn => ?_,
    fun other member => ?_, ?_⟩
  · obtain ⟨rfl, -⟩ | ⟨-, was, isWas, -⟩ := conns ws conn isConn
    · exact less
    · exact sound.opened ws was isWas
  · obtain ⟨lessToo, isAwaitedToo⟩ := sound.awaited other (List.mem_of_mem_eraseIdx member)
    refine ⟨lessToo, fun conn isConn => ?_⟩
    obtain ⟨same, -⟩ | ⟨-, was, isWas, binding, authenticating⟩ := conns other.ws conn isConn
    · obtain ⟨place, different, isOther⟩ := List.mem_eraseIdx_iff_getElem?.mp member
      have inList : place < (relay.hellos.map Hello.ws).length := by
        rw [List.length_map]
        exact (List.getElem?_eq_some_iff.mp isOther).1
      refine absurd ((List.getElem?_inj inList sound.apart).mp ?_) different
      rw [List.getElem?_map, List.getElem?_map, isHello, isOther, Option.map_some, same]
      rfl
    · rw [binding, authenticating]
      exact isAwaitedToo was isWas
  · exact sound.apart.sublist ((List.eraseIdx_sublist _ _).map Hello.ws)

theorem RelaySound.proceed (sound : RelaySound relay) (index : Nat) (now : Int) :
    RelaySound (relay.proceed runtime index now) := by
  unfold Relay.proceed
  split
  · exact sound
  next hello isHello =>
    split
    · exact sound.goOn isHello _
    · exact sound.goOn isHello _
    next held _ =>
      have touched : RelaySound { relay with
          store := relay.store.write (.touchBrowserBinding held.binding.name now) } := { sound with }
      exact touched.goOn isHello _
    · exact sound.welcome isHello _

theorem RelaySound.fail (sound : RelaySound relay) (index : Nat) : RelaySound (relay.fail index) := by
  unfold Relay.fail
  split
  · exact sound
  next hello isHello =>
    split
    · exact sound.goOn isHello _
    · exact sound.goOn isHello _
    · exact sound.goOn isHello _
    · exact sound

theorem RelaySound.step (sound : RelaySound relay) (event : RelayEvent) :
    RelaySound (relay.step runtime event) := by
  have shed {hub : BrowserHub} (accounts : hub.Accounts relay.calls) (sheds : Sheds relay.hub hub) :
      RelaySound { relay with hub := hub } :=
    sound.sheds accounts sound.distinct sheds
  cases event with
  | open_ => exact sound.open_
  | message ws frame => exact sound.message ws frame
  | proceed hello now => exact sound.proceed hello now
  | fail hello => exact sound.fail hello
  | close ws => exact shed (sound.accounts.detach ws) (sheds_detach ws)
  | call binding req timeoutMs started outcome =>
    rw [Relay.step]
    split
    · exact sound
    next fresh =>
      exact sound.sheds (sound.accounts.call binding fresh timeoutMs started outcome)
        (sound.distinct.cons fresh) (sheds_call _ _ _ _ _)
  | abort id => exact shed (sound.accounts.abort id) (sheds_abort id)
  | fire timer => exact shed (sound.accounts.fire timer) (sheds_fire timer)
  | store write => exact { sound with }
  | revokeStored name =>
    rw [Relay.step]
    split
    · exact { sound with }
    · exact sound
  | revokeHub request =>
    rw [Relay.step]
    split
    next key _ =>
      have revoked := shed (sound.accounts.revoke key.1) (sheds_revoke key.1)
      exact { revoked with }
    · exact sound
  | closeAll code => exact shed (sound.accounts.closeAll code) (sheds_closeAll code)

theorem RelaySound.runs (sound : RelaySound relay) (events : List RelayEvent) :
    RelaySound (relay.runs runtime events) := by
  induction events generalizing relay with
  | nil => exact sound
  | cons event rest inductionHypothesis => exact inductionHypothesis (sound.step event)

/-! ### Revoked bindings -/

/-- No socket is attached for a binding whose revocation is in the store and in the hub. -/
def Unrevoked (relay : Relay) : Prop :=
  ∀ ws held, relay.hub.bound? ws = some held → held.key ∉ relay.revoked

theorem Unrevoked.step (unrevoked : Unrevoked relay) (sound : RelaySound relay) (event : RelayEvent)
    (careful : relay.Careful event) : Unrevoked (relay.step runtime event) := by
  have shed {hub : BrowserHub} (sheds : Sheds relay.hub hub) :
      ∀ ws held, hub.bound? ws = some held → held.key ∉ relay.revoked :=
    fun ws held isBound => unrevoked ws held (sheds.bound isBound)
  cases event with
  | open_ =>
    intro ws held isBound
    refine unrevoked ws held ?_
    obtain ⟨conn, isConn, isHeld⟩ := Option.bind_eq_some_iff.mp isBound
    obtain was | ⟨-, added⟩ := Option.or_eq_some_iff.mp ((conn?_open_ _ _).symm.trans isConn)
    · exact Option.bind_eq_some_iff.mpr ⟨conn, was, isHeld⟩
    · split at added
      · obtain rfl := Option.some.inj added
        cases isHeld
      · cases added
  | message ws frame =>
    rw [Relay.step, Relay.message]
    obtain ⟨isNone, sheds⟩ | ⟨conn, ⟨token, paused⟩, -, -, -, same⟩ :=
      message_cases  ws frame
    · split
      next isMessage =>
        rw [isMessage] at isNone
        cases isNone
      next hub isMessage =>
        rw [isMessage] at sheds
        exact shed sheds
    · rw [same]
      intro other held isBound
      refine unrevoked other held ?_
      obtain ⟨conn', isConn, isHeld⟩ := Option.bind_eq_some_iff.mp isBound
      let change : Conn → Conn := fun conn => { conn with authenticating := true }
      have keeps : ∀ conn, (change conn).ws = conn.ws := fun _ => rfl
      have isConn : (relay.hub.update ws change).conn? other = some conn' := isConn
      rw [conn?_update ws change keeps] at isConn
      obtain ⟨was, isWas, rfl⟩ := Option.map_eq_some_iff.mp isConn
      refine Option.bind_eq_some_iff.mpr ⟨was, isWas, ?_⟩
      split at isHeld <;> exact isHeld
  | proceed index now =>
    rw [Relay.step, Relay.proceed]
    split
    · exact unrevoked
    next hello isHello =>
      split
      · exact unrevoked
      · exact unrevoked
      · exact unrevoked
      next checked isChecked =>
        intro ws held isBound
        obtain ⟨conn, isConn, isHeld⟩ := Option.bind_eq_some_iff.mp isBound
        have unbound := (sound.awaited hello (List.mem_of_getElem? isHello)).2
        obtain ⟨-, taken, rfl, isTaken, isOpen⟩ | ⟨-, was, isWas, binding, -⟩ :=
          (registered_welcome sound.registered (fun conn isConn => (unbound conn isConn).1)
            hello.paused checked).2 ws conn isConn
        · obtain rfl := Option.some.inj (isTaken.symm.trans isHeld)
          exact careful hello taken isHello isChecked isOpen
        · exact unrevoked ws held (Option.bind_eq_some_iff.mpr ⟨was, isWas, binding.symm.trans isHeld⟩)
  | fail index =>
    rw [Relay.step, Relay.fail]
    split
    · exact unrevoked
    · split <;> exact unrevoked
  | close ws => exact shed (sheds_detach ws)
  | call binding req timeoutMs started outcome =>
    rw [Relay.step]
    split
    · exact unrevoked
    · exact shed (sheds_call _ _ _ _ _)
  | abort id => exact shed (sheds_abort id)
  | fire timer => exact shed (sheds_fire timer)
  | store write => exact unrevoked
  | revokeStored name =>
    rw [Relay.step]
    split <;> exact unrevoked
  | revokeHub request =>
    rw [Relay.step]
    split
    next key _ =>
      intro ws held isBound member
      obtain rfl | member := List.mem_cons.mp member
      · exact name_ne_of_bound?_revoke sound.registered isBound rfl
      · exact shed (sheds_revoke key.1) ws held isBound member
    · exact unrevoked
  | closeAll code => exact shed (sheds_closeAll code)

theorem Unrevoked.runs (unrevoked : Unrevoked relay) (sound : RelaySound relay)
    (events : List RelayEvent) (careful : CarefulRun runtime relay events) :
    Unrevoked (relay.runs runtime events) := by
  induction events generalizing relay with
  | nil => exact unrevoked
  | cons event rest inductionHypothesis =>
    exact inductionHypothesis (unrevoked.step sound event careful.1) (sound.step event) careful.2

/-! ### Where calls are sent -/

/-- The binding that an event makes a call for. -/
def RelayEvent.callee? : RelayEvent → Option String
  | .call binding _ _ _ _ => some binding
  | _ => none

/-- A request is sent by a call only, and to the socket that is attached for its binding. -/
theorem RelaySound.asked_step (sound : RelaySound relay) (event : RelayEvent) {ws : Socket}
    {id : String} (isAsked : (ws, id) ∈ (relay.step runtime event).hub.asked) :
    (ws, id) ∈ relay.hub.asked ∨
      ∃ held, relay.hub.bound? ws = some held ∧ event.callee? = some held.binding.name := by
  cases event with
  | call binding req timeoutMs started outcome =>
    rw [Relay.step] at isAsked
    split at isAsked
    · exact .inl isAsked
    · refine (asked_call isAsked).imp_right fun isRegistered => ?_
      obtain ⟨held, isBound, isName⟩ := sound.registered.registered binding ws isRegistered
      exact ⟨held, isBound, congrArg some isName.symm⟩
  | open_ => exact .inl isAsked
  | message socket frame =>
    refine .inl ?_
    rw [← asked_message socket frame]
    rw [Relay.step, Relay.message] at isAsked
    split at isAsked
    next isMessage =>
      rw [isMessage]
      exact isAsked
    next isMessage =>
      rw [isMessage]
      exact isAsked
  | proceed index now =>
    refine .inl ?_
    rw [Relay.step, Relay.proceed] at isAsked
    split at isAsked
    · exact isAsked
    · split at isAsked
      · exact isAsked
      · exact isAsked
      · exact isAsked
      · exact asked_welcome _ _ _ ▸ isAsked
  | fail index =>
    refine .inl ?_
    rw [Relay.step, Relay.fail] at isAsked
    split at isAsked
    · exact isAsked
    · split at isAsked <;> exact isAsked
  | close socket => exact .inl (asked_detach socket ▸ isAsked)
  | abort call => exact .inl (asked_abort call ▸ isAsked)
  | fire timer => exact .inl (asked_fire timer ▸ isAsked)
  | store write => exact .inl isAsked
  | revokeStored name =>
    rw [Relay.step] at isAsked
    split at isAsked <;> exact .inl isAsked
  | revokeHub request =>
    rw [Relay.step] at isAsked
    split at isAsked
    · exact .inl (asked_revoke _ ▸ isAsked)
    · exact .inl isAsked
  | closeAll code => exact .inl (asked_closeAll code ▸ isAsked)

/-! ### The calls of a run -/

/-- A pending call is settled when its timer goes off, if it was not before. -/
theorem RelaySound.count_resolved_fire (sound : RelaySound relay) {id : String} {pending : Pending}
    (isPending : relay.hub.pending.get id = some pending) :
    (relay.step runtime (.fire pending.timer)).hub.resolved.count id = 1 := by
  obtain ⟨runs, timeoutMs, isTimer⟩ := sound.accounts.waiting id pending isPending
  rw [isTimer] at runs ⊢
  obtain ⟨isPendingToo, result, fired⟩ := sound.accounts.fire_call runs
  have sent : (relay.hub.send pending.ws (.abort id)).Accounts relay.calls :=
    sound.accounts.keeps (keepsCalls_effect rfl rfl)
  rw [Relay.step, fired]
  exact sent.count_resolved_settle sound.distinct isPendingToo result

namespace Desk

def desk : BrowserBinding := ⟨"desk", .identity "work", "Chrome", .active, 0, none⟩

theorem notCoded : ∀ field ∈ ([] : Members BrowserPairing), field.2.code = field.1 := by simp

def tables : BrowserStore where
  bindings := [("desk", desk)]
  tokens := [⟨"desk", "abcdefgh", "", "2026-10-19T00:00:00.000Z", none⟩]
  pairings := []
  named := by
    rintro field (_ | ⟨_, ⟨⟩⟩)
    rfl
  coded := notCoded

def hashing : TokenRuntime := ⟨fun _ => "", fun _ => none⟩

def hello : Json :=
  .obj [("t", .str "hello"), ("token", .str ("aisg_abcdefgh_" ++ String.ofList (List.replicate 43 'A'))),
    ("version", .str "1"), ("paused", .bool false)]

def request : CallRequest := ⟨"c1", ⟨"s1", "work", "work"⟩, .click, []⟩

/-- The extension connects, and the binding is read. -/
def connecting : List RelayEvent := [.open_, .message 0 (some hello), .proceed 0 1, .proceed 0 2]

def revocation : List RelayEvent := [.revokeStored "desk", .revokeHub 0]

/-- The check of the token ends. -/
def connected : List RelayEvent := [.proceed 0 3, .proceed 0 4]

def calling : RelayEvent := .call "desk" request 30000 5 .sent

end Desk

end AiSwitcher.Gateway.Browser
