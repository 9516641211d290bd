/-
This file proves that the hub settles every call once. A call that was made is resolved, or it is
pending and its timer runs; an operation that resolves a call takes it from the pending ones.
A pending call was sent to one socket, and only a frame of that socket gives it a result.
-/

import Mathlib.Data.List.Nodup
import AiSwitcher.Gateway.Browser.Hub

namespace AiSwitcher.Gateway.Browser

open JavaScript

/-! ### What the effects say of the calls -/

def Effect.asked? : Effect → Option (Socket × String)
  | .send ws (.call req) => some (ws, req.id)
  | _ => none

def Effect.resolved? : Effect → Option String
  | .resolve id _ => some id
  | _ => none

def Timer.isCall : Timer → Bool
  | .call _ _ _ => true
  | .hello _ | .silence _ => false

namespace BrowserHub

variable {hub : BrowserHub} {calls : List String}

/-- The requests that were sent, with their sockets. -/
def asked (hub : BrowserHub) : List (Socket × String) := hub.effects.filterMap Effect.asked?

def resolved (hub : BrowserHub) : List String := hub.effects.filterMap Effect.resolved?

/-- How often a call was settled or waits for it. -/
def balance (hub : BrowserHub) (id : String) : Nat :=
  hub.resolved.count id + if (hub.pending.get id).isSome then 1 else 0

/-- The calls made so far are accounted for. -/
structure Accounts (hub : BrowserHub) (calls : List String) : Prop where
  balance : ∀ id, hub.balance id = calls.count id
  waiting : ∀ id pending, hub.pending.get id = some pending →
    pending.timer ∈ hub.timers ∧ ∃ timeoutMs, pending.timer = .call id pending.ws timeoutMs
  running : ∀ id ws timeoutMs, .call id ws timeoutMs ∈ hub.timers →
    hub.pending.get id = some ⟨ws, .call id ws timeoutMs⟩
  sent : ∀ id pending, hub.pending.get id = some pending → (pending.ws, id) ∈ hub.asked
  once : ∀ id first second, (first, id) ∈ hub.asked → (second, id) ∈ hub.asked → first = second
  known : ∀ ws id, (ws, id) ∈ hub.asked → id ∈ calls

/-- An operation that leaves the calls alone. -/
structure KeepsCalls (before after : BrowserHub) : Prop where
  pending : after.pending = before.pending
  asked : after.asked = before.asked
  resolved : after.resolved = before.resolved
  timers : ∀ timer, timer.isCall = true → (timer ∈ after.timers ↔ timer ∈ before.timers)

theorem Accounts.keeps {after : BrowserHub} (accounts : Accounts hub calls)
    (keeps : KeepsCalls hub after) : Accounts after calls where
  balance := by
    intro id
    rw [BrowserHub.balance, keeps.resolved, keeps.pending]
    exact accounts.balance id
  waiting := by
    intro id pending isPending
    rw [keeps.pending] at isPending
    obtain ⟨runs, timeoutMs, isTimer⟩ := accounts.waiting id pending isPending
    exact ⟨(keeps.timers _ (isTimer ▸ rfl)).mpr runs, timeoutMs, isTimer⟩
  running := by
    intro id ws timeoutMs runs
    rw [keeps.pending]
    exact accounts.running id ws timeoutMs ((keeps.timers _ rfl).mp runs)
  sent := by
    rw [keeps.pending, keeps.asked]
    exact accounts.sent
  once := by
    rw [keeps.asked]
    exact accounts.once
  known := by
    rw [keeps.asked]
    exact accounts.known

theorem KeepsCalls.trans {first second third : BrowserHub} (one : KeepsCalls first second)
    (two : KeepsCalls second third) : KeepsCalls first third where
  pending := two.pending.trans one.pending
  asked := two.asked.trans one.asked
  resolved := two.resolved.trans one.resolved
  timers := fun timer isCall => (two.timers timer isCall).trans (one.timers timer isCall)

theorem keepsCalls_sockets (conns : List Conn) (byBinding : Members Socket) :
    KeepsCalls hub { hub with conns := conns, byBinding := byBinding } :=
  ⟨rfl, rfl, rfl, fun _ _ => Iff.rfl⟩

theorem mem_timers_clearTimeout {timer other : Timer} :
    other ∈ (hub.clearTimeout timer).timers ↔ other ∈ hub.timers ∧ other ≠ timer := by
  rw [clearTimeout, List.mem_filter, decide_eq_true_iff]

theorem keepsCalls_clearTimeout {timer : Timer} (other : timer.isCall = false) :
    KeepsCalls hub (hub.clearTimeout timer) where
  pending := rfl
  asked := rfl
  resolved := rfl
  timers := by
    intro call isCall
    have different : call ≠ timer := by
      rintro rfl
      rw [isCall] at other
      cases other
    exact mem_timers_clearTimeout.trans (and_iff_left different)

theorem keepsCalls_setTimeout {timer : Timer} (other : timer.isCall = false) :
    KeepsCalls hub (hub.setTimeout timer) where
  pending := rfl
  asked := rfl
  resolved := rfl
  timers := by
    intro call isCall
    have different : call ≠ timer := by
      rintro rfl
      rw [isCall] at other
      cases other
    rw [setTimeout, List.mem_append, List.mem_singleton, or_iff_left different]

theorem keepsCalls_touch (ws : Socket) : KeepsCalls hub (hub.touch ws) :=
  (keepsCalls_clearTimeout rfl).trans (keepsCalls_setTimeout rfl)

theorem keepsCalls_update (ws : Socket) (change : Conn → Conn) :
    KeepsCalls hub (hub.update ws change) :=
  keepsCalls_sockets _ _

theorem keepsCalls_effect {effect : Effect} (noCall : effect.asked? = none)
    (noResult : effect.resolved? = none) :
    KeepsCalls hub { hub with effects := hub.effects ++ [effect] } where
  pending := rfl
  asked := by
    rw [asked, List.filterMap_append, List.filterMap_cons_none noCall, List.filterMap_nil,
      List.append_nil]
    rfl
  resolved := by
    rw [resolved, List.filterMap_append, List.filterMap_cons_none noResult, List.filterMap_nil,
      List.append_nil]
    rfl
  timers := fun _ _ => Iff.rfl

theorem keepsCalls_forget (conn : Conn) : KeepsCalls hub (hub.forget conn) :=
  ((keepsCalls_clearTimeout rfl).trans (keepsCalls_clearTimeout rfl)).trans (keepsCalls_sockets _ _)

/-! ### Settling -/

theorem settle_of_none {id : String} (notPending : hub.pending.get id = none) (result : CallResult) :
    hub.settle id result = hub := by
  rw [settle, notPending]

theorem settle_of_some {id : String} {pending : Pending}
    (isPending : hub.pending.get id = some pending) (result : CallResult) :
    hub.settle id result =
      { hub.clearTimeout pending.timer with
        pending := hub.pending.delete id
        effects := hub.effects ++ [.resolve id result] } := by
  rw [settle, isPending]

/-- To settle a call clears its timer. -/
theorem settle_clearTimeout {id : String} {pending : Pending}
    (isPending : hub.pending.get id = some pending) (result : CallResult) :
    (hub.clearTimeout pending.timer).settle id result = hub.settle id result := by
  have cleared : (hub.clearTimeout pending.timer).clearTimeout pending.timer =
      hub.clearTimeout pending.timer := by
    rw [clearTimeout, clearTimeout, List.filter_filter]
    simp only [Bool.and_self]
  have isPendingToo : (hub.clearTimeout pending.timer).pending.get id = some pending := isPending
  rw [settle_of_some isPending, settle_of_some isPendingToo, cleared]
  rfl

theorem asked_settle (id : String) (result : CallResult) : (hub.settle id result).asked = hub.asked := by
  unfold settle
  split
  · rfl
  · rw [asked, List.filterMap_append]
    exact List.append_nil _

theorem get_pending_settle (id : String) (result : CallResult) (other : String) :
    (hub.settle id result).pending.get other = if other = id then none else hub.pending.get other := by
  cases isPending : hub.pending.get id with
  | none =>
    rw [settle_of_none isPending]
    split
    next same => rw [same, isPending]
    next => rfl
  | some pending =>
    rw [settle_of_some isPending]
    exact Members.get_delete _ _ _

theorem resolved_settle {id : String} {pending : Pending}
    (isPending : hub.pending.get id = some pending) (result : CallResult) :
    (hub.settle id result).resolved = hub.resolved ++ [id] := by
  rw [settle_of_some isPending, resolved, List.filterMap_append]
  rfl

theorem balance_settle (id : String) (result : CallResult) (other : String) :
    (hub.settle id result).balance other = hub.balance other := by
  cases isPending : hub.pending.get id with
  | none => rw [settle_of_none isPending]
  | some pending =>
    rw [balance, balance, get_pending_settle, resolved_settle isPending, List.count_append,
      List.count_singleton]
    by_cases same : other = id
    · rw [same, if_pos rfl, isPending]
      simp
    · rw [if_neg same, if_neg (by simpa using fun equal => same equal.symm), Nat.add_zero]

theorem Accounts.settle (accounts : Accounts hub calls) (id : String) (result : CallResult) :
    Accounts (hub.settle id result) calls where
  balance := fun other => (balance_settle id result other).trans (accounts.balance other)
  waiting := by
    intro other pending isPending
    rw [get_pending_settle] at isPending
    split at isPending
    · cases isPending
    next different =>
      obtain ⟨runs, timeoutMs, isTimer⟩ := accounts.waiting other pending isPending
      refine ⟨?_, timeoutMs, isTimer⟩
      cases settled : hub.pending.get id with
      | none =>
        rw [settle_of_none settled]
        exact runs
      | some removed =>
        rw [settle_of_some settled]
        obtain ⟨-, limit, isRemoved⟩ := accounts.waiting id removed settled
        refine mem_timers_clearTimeout.mpr ⟨runs, fun same => different ?_⟩
        rw [isTimer, isRemoved] at same
        exact (Timer.call.inj same).1
  running := by
    intro other ws timeoutMs runs
    cases settled : hub.pending.get id with
    | none =>
      rw [settle_of_none settled] at runs ⊢
      exact accounts.running other ws timeoutMs runs
    | some removed =>
      rw [get_pending_settle]
      rw [settle_of_some settled] at runs
      obtain ⟨runs, different⟩ := mem_timers_clearTimeout.mp runs
      have isPending := accounts.running other ws timeoutMs runs
      split
      next same =>
        rw [same, settled] at isPending
        obtain rfl := Option.some.inj isPending
        exact absurd (same ▸ rfl) different
      next => exact isPending
  sent := by
    intro other pending isPending
    rw [get_pending_settle] at isPending
    rw [asked_settle]
    split at isPending
    · cases isPending
    · exact accounts.sent other pending isPending
  once := by
    rw [asked_settle]
    exact accounts.once
  known := by
    rw [asked_settle]
    exact accounts.known

/-- A pending call that is settled was settled once. -/
theorem Accounts.count_resolved_settle (accounts : Accounts hub calls) (distinct : calls.Nodup)
    {id : String} {pending : Pending} (isPending : hub.pending.get id = some pending)
    (result : CallResult) : (hub.settle id result).resolved.count id = 1 := by
  have balance := accounts.balance id
  have atMost := List.nodup_iff_count_le_one.mp distinct id
  rw [BrowserHub.balance, isPending, Option.isSome_some, if_pos rfl] at balance
  rw [resolved_settle isPending, List.count_append, List.count_singleton_self]
  omega

/-! ### Every operation keeps the accounts -/

theorem Accounts.settleAll (accounts : Accounts hub calls) (ids : List String)
    (result : String → CallResult) :
    Accounts (ids.foldl (fun hub id => hub.settle id (result id)) hub) calls := by
  induction ids generalizing hub with
  | nil => exact accounts
  | cons id rest inductionHypothesis => exact inductionHypothesis (accounts.settle id (result id))

theorem Accounts.detach (accounts : Accounts hub calls) (ws : Socket) :
    Accounts (hub.detach ws) calls := by
  unfold BrowserHub.detach
  split
  · exact accounts
  · exact (accounts.keeps (keepsCalls_forget _)).settleAll _ _

theorem Accounts.drop (accounts : Accounts hub calls) (ws : Socket) (code : Nat) (reason : String) :
    Accounts (hub.drop ws code reason) calls :=
  (accounts.detach ws).keeps (keepsCalls_effect rfl rfl)

theorem Accounts.open_ (accounts : Accounts hub calls) (ws : Socket) :
    Accounts (hub.open_ ws) calls :=
  accounts.keeps ((keepsCalls_setTimeout rfl).trans (keepsCalls_sockets _ _))

theorem Accounts.attach (accounts : Accounts hub calls) (ws : Socket) (held : Held) :
    Accounts (hub.attach ws held) calls := by
  unfold BrowserHub.attach
  extract_lets present awaited alone bound
  have isPresent : Accounts present calls := by
    unfold present
    split
    · exact accounts
    · exact accounts.keeps (keepsCalls_sockets _ _)
  have isAwaited : Accounts awaited calls := isPresent.keeps (keepsCalls_clearTimeout rfl)
  have isAlone : Accounts alone calls := by
    unfold alone
    split
    · split
      · exact isAwaited
      · exact isAwaited.drop _ _ _
    · exact isAwaited
  have isBound : Accounts bound calls := isAlone.keeps (keepsCalls_update _ _)
  exact isBound.keeps ((keepsCalls_sockets _ _).trans (keepsCalls_touch ws))

theorem Accounts.welcome (accounts : Accounts hub calls) (ws : Socket) (paused : Bool)
    (checked : Checked) : Accounts (hub.welcome ws paused checked) calls := by
  cases checked with
  | failed => exact accounts.drop _ _ _
  | unauthorised => exact accounts.drop _ _ _
  | binding held =>
    rw [BrowserHub.welcome]
    split
    · exact accounts
    · exact ((accounts.keeps (keepsCalls_update _ _)).attach ws held).keeps (keepsCalls_effect rfl rfl)

theorem Accounts.greet (accounts : Accounts hub calls) (conn : Conn) (kind : String) (msg : Object) :
    Accounts (hub.greet conn kind msg).1 calls := by
  unfold BrowserHub.greet
  split
  · exact accounts
  split
  · split
    · exact accounts.keeps (keepsCalls_update _ _)
    · exact accounts.drop _ _ _
  · exact accounts.drop _ _ _

theorem Accounts.receive (accounts : Accounts hub calls) (ws : Socket) (kind : String)
    (msg : Object) : Accounts (hub.receive ws kind msg) calls := by
  unfold BrowserHub.receive
  split
  · exact accounts.keeps (keepsCalls_effect rfl rfl)
  · exact accounts.keeps (keepsCalls_update _ _)
  · split
    · exact accounts
    split
    · split
      · exact accounts.settle _ _
      · exact accounts
    · exact accounts
  · exact accounts

theorem Accounts.message (accounts : Accounts hub calls) (ws : Socket) (frame : Option Json) :
    Accounts (hub.message ws frame).1 calls := by
  unfold BrowserHub.message
  split
  · exact accounts
  split
  · exact accounts.drop _ _ _
  split
  · exact accounts.drop _ _ _
  split
  · exact accounts.greet _ _ _
  · exact (accounts.keeps (keepsCalls_touch ws)).receive _ _ _

theorem Accounts.abort (accounts : Accounts hub calls) (id : String) :
    Accounts (hub.abort id) calls := by
  unfold BrowserHub.abort
  split
  · exact accounts
  · exact (accounts.keeps (keepsCalls_effect rfl rfl)).settle _ _

theorem Accounts.revoke (accounts : Accounts hub calls) (binding : String) :
    Accounts (hub.revoke binding) calls := by
  unfold BrowserHub.revoke
  split
  · exact accounts.drop _ _ _
  · exact accounts

theorem Accounts.closeAll (accounts : Accounts hub calls) (code : Nat) :
    Accounts (hub.closeAll code) calls := by
  unfold BrowserHub.closeAll
  generalize hub.conns.map Conn.ws = sockets
  induction sockets generalizing hub with
  | nil => exact accounts
  | cons ws rest inductionHypothesis => exact inductionHypothesis (accounts.drop _ _ _)

/-! ### A call and its timer -/

theorem Accounts.fresh (accounts : Accounts hub calls) {id : String} (fresh : id ∉ calls) :
    hub.pending.get id = none ∧ hub.resolved.count id = 0 := by
  have balance := accounts.balance id
  rw [List.count_eq_zero.mpr fresh, BrowserHub.balance] at balance
  obtain ⟨isZero, notPending⟩ := Nat.add_eq_zero_iff.mp balance
  refine ⟨?_, isZero⟩
  cases isPending : hub.pending.get id with
  | none => rfl
  | some pending =>
    rw [isPending] at notPending
    cases notPending

theorem asked_answer (id : String) (result : CallResult) : (hub.answer id result).asked = hub.asked :=
  List.filterMap_append.trans (List.append_nil _)

/-- A call that is answered at once. -/
theorem Accounts.answer (accounts : Accounts hub calls) (id : String) (result : CallResult) :
    Accounts (hub.answer id result) (id :: calls) where
  balance := by
    intro other
    have balance := accounts.balance other
    have isResolved : (hub.answer id result).resolved = hub.resolved ++ [id] :=
      List.filterMap_append
    rw [BrowserHub.balance] at balance ⊢
    rw [isResolved, List.count_append, List.count_singleton, List.count_cons, ← balance]
    exact Nat.add_right_comm _ _ _
  waiting := accounts.waiting
  running := accounts.running
  sent := by
    rw [asked_answer]
    exact accounts.sent
  once := by
    rw [asked_answer]
    exact accounts.once
  known := by
    rw [asked_answer]
    exact fun ws other isAsked => List.mem_cons_of_mem _ (accounts.known ws other isAsked)

/-- The hub when a call waits for the browser. -/
abbrev asking (hub : BrowserHub) (ws : Socket) (req : CallRequest) (timeoutMs : Nat) : BrowserHub :=
  { hub.setTimeout (.call req.id ws timeoutMs) with
    pending := hub.pending.set req.id ⟨ws, .call req.id ws timeoutMs⟩ }.send ws (.call req)

theorem asked_asking (ws : Socket) (req : CallRequest) (timeoutMs : Nat) :
    (hub.asking ws req timeoutMs).asked = hub.asked ++ [(ws, req.id)] :=
  List.filterMap_append

theorem resolved_asking (ws : Socket) (req : CallRequest) (timeoutMs : Nat) :
    (hub.asking ws req timeoutMs).resolved = hub.resolved :=
  List.filterMap_append.trans (List.append_nil _)

theorem get_pending_asking (ws : Socket) (req : CallRequest) (timeoutMs : Nat) (other : String) :
    (hub.asking ws req timeoutMs).pending.get other =
      if other = req.id then some ⟨ws, .call req.id ws timeoutMs⟩ else hub.pending.get other :=
  Members.get_set _ _ _ _

theorem Accounts.asking (accounts : Accounts hub calls) {req : CallRequest} (fresh : req.id ∉ calls)
    (ws : Socket) (timeoutMs : Nat) :
    Accounts (hub.asking ws req timeoutMs) (req.id :: calls) where
  balance := by
    intro other
    have balance := accounts.balance other
    rw [BrowserHub.balance] at balance ⊢
    rw [resolved_asking, get_pending_asking, List.count_cons, ← balance]
    by_cases same : other = req.id
    · rw [same, (accounts.fresh fresh).1]
      simp
    · have different : ¬(req.id == other) = true := by simpa using Ne.symm same
      rw [if_neg same, if_neg different]
      rfl
  waiting := by
    intro other pending isPending
    rw [get_pending_asking] at isPending
    split at isPending
    next same =>
      obtain rfl := Option.some.inj isPending
      exact ⟨List.mem_append_right _ List.mem_cons_self, timeoutMs, by rw [same]⟩
    next =>
      obtain ⟨runs, isTimer⟩ := accounts.waiting other pending isPending
      exact ⟨List.mem_append_left _ runs, isTimer⟩
  running := by
    intro other socket limit runs
    rw [get_pending_asking]
    obtain runs | added := List.mem_append.mp runs
    · have isPending := accounts.running other socket limit runs
      rw [if_neg, isPending]
      rintro rfl
      rw [(accounts.fresh fresh).1] at isPending
      cases isPending
    · obtain ⟨rfl, rfl, rfl⟩ := Timer.call.inj (List.mem_singleton.mp added)
      rw [if_pos rfl]
  sent := by
    intro other pending isPending
    rw [asked_asking]
    rw [get_pending_asking] at isPending
    split at isPending
    next same =>
      obtain rfl := Option.some.inj isPending
      exact List.mem_append_right _ (List.mem_singleton.mpr (by rw [same]))
    next => exact List.mem_append_left _ (accounts.sent other pending isPending)
  once := by
    intro other first second isFirst isSecond
    rw [asked_asking] at isFirst isSecond
    obtain isFirst | isFirst := List.mem_append.mp isFirst <;>
      obtain isSecond | isSecond := List.mem_append.mp isSecond
    · exact accounts.once other first second isFirst isSecond
    · cases List.mem_singleton.mp isSecond
      exact absurd (accounts.known first req.id isFirst) fresh
    · cases List.mem_singleton.mp isFirst
      exact absurd (accounts.known second req.id isSecond) fresh
    · cases List.mem_singleton.mp isFirst
      cases List.mem_singleton.mp isSecond
      rfl
  known := by
    intro socket other isAsked
    rw [asked_asking] at isAsked
    obtain isAsked | added := List.mem_append.mp isAsked
    · exact List.mem_cons_of_mem _ (accounts.known socket other isAsked)
    · cases List.mem_singleton.mp added
      exact List.mem_cons_self

theorem Accounts.call (accounts : Accounts hub calls) (binding : String) {req : CallRequest}
    (fresh : req.id ∉ calls) (timeoutMs : Nat) (started : Int) (outcome : SendOutcome) :
    Accounts (hub.call binding req timeoutMs started outcome) (req.id :: calls) := by
  have counted (sessions : Members Int) : Accounts { hub with sessions := sessions } calls :=
    accounts.keeps ⟨rfl, rfl, rfl, fun _ _ => Iff.rfl⟩
  unfold BrowserHub.call
  dsimp only
  split
  · exact (counted _).answer _ _
  next conn _ =>
    split
    · exact (counted _).answer _ _
    · have isAsked (sessions : Members Int) :=
        (counted sessions).asking fresh conn.ws timeoutMs
      split
      · exact isAsked _
      · exact (isAsked _).settle _ _

/-- The timer of a call goes off: the call is settled as any other pending one. -/
theorem Accounts.fire_call (accounts : Accounts hub calls) {id : String} {ws : Socket}
    {timeoutMs : Nat} (runs : .call id ws timeoutMs ∈ hub.timers) :
    hub.pending.get id = some ⟨ws, .call id ws timeoutMs⟩ ∧ ∃ result,
      hub.fire (.call id ws timeoutMs) = (hub.send ws (.abort id)).settle id result := by
  have isPending := accounts.running id ws timeoutMs runs
  refine ⟨isPending, ?_⟩
  unfold BrowserHub.fire
  rw [if_pos runs]
  have isPendingToo : (hub.send ws (.abort id)).pending.get id =
      some ⟨ws, .call id ws timeoutMs⟩ := isPending
  exact ⟨_, settle_clearTimeout isPendingToo _⟩

theorem Accounts.fire (accounts : Accounts hub calls) (timer : Timer) :
    Accounts (hub.fire timer) calls := by
  by_cases runs : timer ∈ hub.timers
  · cases timer with
    | hello ws =>
      rw [BrowserHub.fire.eq_def, if_pos runs]
      exact (accounts.keeps (keepsCalls_clearTimeout rfl)).drop _ _ _
    | silence ws =>
      rw [BrowserHub.fire.eq_def, if_pos runs]
      exact (accounts.keeps (keepsCalls_clearTimeout rfl)).drop _ _ _
    | call id ws timeoutMs =>
      obtain ⟨-, result, same⟩ := accounts.fire_call runs
      rw [same]
      exact (accounts.keeps (keepsCalls_effect rfl rfl)).settle id result
  · unfold BrowserHub.fire
    rw [if_neg runs]
    exact accounts

/-! ### Whose calls a frame settles -/

/-- Only calls that were sent to this socket stop being pending. -/
def SettlesOnly (ws : Socket) (before after : BrowserHub) : Prop :=
  ∀ id, after.pending.get id = before.pending.get id ∨
    ∃ pending, before.pending.get id = some pending ∧ pending.ws = ws

theorem KeepsCalls.settlesOnly {after : BrowserHub} (keeps : KeepsCalls hub after) (ws : Socket) :
    SettlesOnly ws hub after :=
  fun id => .inl (congrArg (Members.get · id) keeps.pending)

theorem ws_of_mem_callsOf {ws : Socket} {id : String} (member : id ∈ hub.callsOf ws) :
    ∃ pending, hub.pending.get id = some pending ∧ pending.ws = ws := by
  obtain ⟨field, isCall, rfl⟩ := List.mem_map.mp member
  obtain ⟨pending, isPending, same⟩ :=
    (Option.any_eq_true _ _).mp (List.mem_filter.mp isCall).2
  exact ⟨pending, isPending, of_decide_eq_true same⟩

theorem get_pending_settleAll (ids : List String) (result : String → CallResult) {id : String}
    (other : id ∉ ids) :
    (ids.foldl (fun hub id => hub.settle id (result id)) hub).pending.get id = hub.pending.get id := by
  induction ids generalizing hub with
  | nil => rfl
  | cons first rest inductionHypothesis =>
    rw [List.mem_cons, not_or] at other
    rw [List.foldl_cons, inductionHypothesis other.2, get_pending_settle, if_neg other.1]

theorem settlesOnly_detach (ws : Socket) : SettlesOnly ws hub (hub.detach ws) := by
  intro id
  unfold BrowserHub.detach
  split
  · exact .inl rfl
  by_cases member : id ∈ hub.callsOf ws
  · exact .inr (ws_of_mem_callsOf member)
  · exact .inl (get_pending_settleAll _ _ member)

theorem settlesOnly_drop (ws : Socket) (code : Nat) (reason : String) :
    SettlesOnly ws hub (hub.drop ws code reason) :=
  settlesOnly_detach ws

theorem settlesOnly_receive (ws : Socket) (kind : String) (msg : Object) :
    SettlesOnly ws hub (hub.receive ws kind msg) := by
  unfold BrowserHub.receive
  split
  · exact (keepsCalls_effect rfl rfl).settlesOnly ws
  · exact (keepsCalls_update _ _).settlesOnly ws
  · split
    · exact fun _ => .inl rfl
    split
    next result _ _ pending isPending =>
      split
      next same =>
        intro id
        rw [get_pending_settle]
        split
        next equal => exact .inr ⟨pending, equal ▸ isPending, same⟩
        next => exact .inl rfl
      next => exact fun _ => .inl rfl
    next => exact fun _ => .inl rfl
  · exact fun _ => .inl rfl

theorem settlesOnly_message (ws : Socket) (frame : Option Json) :
    SettlesOnly ws hub (hub.message ws frame).1 := by
  unfold BrowserHub.message
  split
  · exact fun _ => .inl rfl
  next conn isConn =>
    split
    · exact settlesOnly_drop _ _ _
    split
    · exact settlesOnly_drop _ _ _
    split
    · have same : conn.ws = ws := ws_of_conn? isConn
      unfold BrowserHub.greet
      split
      · exact fun _ => .inl rfl
      split
      · split
        · exact (keepsCalls_update _ _).settlesOnly ws
        · exact same ▸ settlesOnly_drop _ _ _
      · exact same ▸ settlesOnly_drop _ _ _
    · exact (settlesOnly_receive ws _ _ : SettlesOnly ws (hub.touch ws) _)

/-- A frame of a socket settles only calls that were sent to it. -/
theorem Accounts.asked_of_message (accounts : Accounts hub calls) {ws : Socket}
    {frame : Option Json} {id : String}
    (settles : (hub.message ws frame).1.resolved.count id ≠ hub.resolved.count id) :
    (ws, id) ∈ hub.asked := by
  obtain same | ⟨pending, isPending, rfl⟩ := (settlesOnly_message ws frame : SettlesOnly ws hub _) id
  · have before := accounts.balance id
    have after := (accounts.message ws frame).balance id
    rw [BrowserHub.balance] at before after
    rw [same, ← before] at after
    exact absurd (Nat.add_right_cancel after) settles
  · exact accounts.sent id pending isPending

/-! ### Only a call sends a request -/

theorem asked_settleAll (ids : List String) (result : String → CallResult) :
    (ids.foldl (fun hub id => hub.settle id (result id)) hub).asked = hub.asked := by
  induction ids generalizing hub with
  | nil => rfl
  | cons id rest inductionHypothesis => rw [List.foldl_cons, inductionHypothesis, asked_settle]

theorem asked_detach (ws : Socket) : (hub.detach ws).asked = hub.asked := by
  unfold BrowserHub.detach
  split
  · rfl
  · rw [asked_settleAll, (keepsCalls_forget _).asked]

theorem asked_drop (ws : Socket) (code : Nat) (reason : String) :
    (hub.drop ws code reason).asked = hub.asked :=
  (keepsCalls_effect rfl rfl).asked.trans (asked_detach ws)

theorem asked_attach (ws : Socket) (held : Held) : (hub.attach ws held).asked = hub.asked := by
  unfold BrowserHub.attach
  extract_lets present awaited alone bound
  have isPresent : present.asked = hub.asked := by
    unfold present
    split <;> rfl
  have isAlone : alone.asked = hub.asked := by
    unfold alone
    split
    · split
      · exact isPresent
      · rw [asked_drop]
        exact isPresent
    · exact isPresent
  exact ((keepsCalls_sockets _ _).trans (keepsCalls_touch ws)).asked.trans isAlone

theorem asked_welcome (ws : Socket) (paused : Bool) (checked : Checked) :
    (hub.welcome ws paused checked).asked = hub.asked := by
  cases checked with
  | failed => exact asked_drop _ _ _
  | unauthorised => exact asked_drop _ _ _
  | binding held =>
    rw [BrowserHub.welcome]
    split
    · rfl
    · exact ((keepsCalls_effect rfl rfl).asked.trans (asked_attach ws held)).trans
        (keepsCalls_update _ _).asked

theorem asked_receive (ws : Socket) (kind : String) (msg : Object) :
    (hub.receive ws kind msg).asked = hub.asked := by
  unfold BrowserHub.receive
  split
  · exact (keepsCalls_effect rfl rfl).asked
  · rfl
  · split
    · rfl
    split
    · split
      · exact asked_settle _ _
      · rfl
    · rfl
  · rfl

theorem asked_message (ws : Socket) (frame : Option Json) :
    (hub.message ws frame).1.asked = hub.asked := by
  unfold BrowserHub.message
  split
  · rfl
  split
  · exact asked_drop _ _ _
  split
  · exact asked_drop _ _ _
  split
  · unfold BrowserHub.greet
    split
    · rfl
    split
    · split
      · rfl
      · exact asked_drop _ _ _
    · exact asked_drop _ _ _
  · exact (asked_receive _ _ _).trans (keepsCalls_touch ws).asked

theorem asked_abort (id : String) : (hub.abort id).asked = hub.asked := by
  unfold BrowserHub.abort
  split
  · rfl
  · exact (asked_settle _ _).trans (keepsCalls_effect rfl rfl).asked

theorem asked_revoke (binding : String) : (hub.revoke binding).asked = hub.asked := by
  unfold BrowserHub.revoke
  split
  · exact asked_drop _ _ _
  · rfl

theorem asked_closeAll (code : Nat) : (hub.closeAll code).asked = hub.asked := by
  unfold BrowserHub.closeAll
  generalize hub.conns.map Conn.ws = sockets
  induction sockets generalizing hub with
  | nil => rfl
  | cons ws rest inductionHypothesis => rw [List.foldl_cons, inductionHypothesis, asked_drop]

theorem asked_fire (timer : Timer) : (hub.fire timer).asked = hub.asked := by
  unfold BrowserHub.fire
  split
  · cases timer with
    | hello ws => exact asked_drop _ _ _
    | silence ws => exact asked_drop _ _ _
    | call id ws timeoutMs => exact (asked_settle _ _).trans (keepsCalls_effect rfl rfl).asked
  · rfl

/-- A call sends its request to the socket that is registered for its binding, if to any. -/
theorem asked_call {binding : String} {req : CallRequest} {timeoutMs : Nat} {started : Int}
    {outcome : SendOutcome} {ws : Socket} {id : String}
    (isAsked : (ws, id) ∈ (hub.call binding req timeoutMs started outcome).asked) :
    (ws, id) ∈ hub.asked ∨ hub.byBinding.get binding = some ws := by
  unfold BrowserHub.call at isAsked
  dsimp only at isAsked
  split at isAsked
  · exact .inl (asked_answer _ _ ▸ isAsked)
  next conn isConn =>
    obtain ⟨socket, isSocket, isConn⟩ := Option.bind_eq_some_iff.mp isConn
    obtain rfl := ws_of_conn? isConn
    have sent (sessions : Members Int)
        (isAsked : (ws, id) ∈ ({ hub with sessions := sessions }.asking conn.ws req timeoutMs).asked) :
        (ws, id) ∈ hub.asked ∨ hub.byBinding.get binding = some ws := by
      rw [asked_asking] at isAsked
      obtain before | added := List.mem_append.mp isAsked
      · exact .inl before
      · cases List.mem_singleton.mp added
        exact .inr isSocket
    split at isAsked
    · exact .inl (asked_answer _ _ ▸ isAsked)
    split at isAsked
    · exact sent _ isAsked
    · rw [asked_settle] at isAsked
      exact sent _ isAsked

theorem accounts_new : Accounts new [] where
  balance := fun _ => rfl
  waiting := fun _ _ isPending => nomatch isPending
  running := fun _ _ _ runs => nomatch runs
  sent := fun _ _ isPending => nomatch isPending
  once := fun _ _ _ isAsked => nomatch isAsked
  known := fun _ _ isAsked => nomatch isAsked

end BrowserHub

end AiSwitcher.Gateway.Browser
