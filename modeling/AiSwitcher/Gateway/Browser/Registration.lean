/-
This file proves that the hub has at most one socket for each binding. A socket is attached exactly
if it is the one registered for the name of its binding. Only a `hello` whose token was
checked attaches a socket; every other operation at most takes sockets away.
-/

import AiSwitcher.Gateway.Browser.Hub

namespace AiSwitcher.Gateway.Browser.BrowserHub

open JavaScript

variable {hub : BrowserHub}

/-- The binding that a socket is attached for. -/
def bound? (hub : BrowserHub) (ws : Socket) : Option Held := (hub.conn? ws).bind Conn.binding

/-- A socket is attached for a binding if and only if it is registered under its name. -/
structure Registered (hub : BrowserHub) : Prop where
  attached : ∀ ws held, hub.bound? ws = some held →
    hub.byBinding.get held.binding.name = some ws
  registered : ∀ name ws, hub.byBinding.get name = some ws →
    ∃ held, hub.bound? ws = some held ∧ held.binding.name = name

/-- An operation that attaches no socket and starts no authentication. -/
structure Sheds (before after : BrowserHub) : Prop where
  conns : ∀ ws conn, after.conn? ws = some conn → ∃ was, before.conn? ws = some was ∧
    conn.binding = was.binding ∧ conn.authenticating = was.authenticating
  registered : Registered before → Registered after

theorem Sheds.trans {first second third : BrowserHub} (one : Sheds first second)
    (two : Sheds second third) : Sheds first third where
  conns := by
    intro ws conn isConn
    obtain ⟨middle, isMiddle, binding, authenticating⟩ := two.conns ws conn isConn
    obtain ⟨was, isWas, before, beforeThat⟩ := one.conns ws middle isMiddle
    exact ⟨was, isWas, binding.trans before, authenticating.trans beforeThat⟩
  registered := fun registered => two.registered (one.registered registered)

theorem Sheds.bound {before after : BrowserHub} (sheds : Sheds before after) {ws : Socket}
    {held : Held} (isBound : after.bound? ws = some held) : before.bound? ws = some held := by
  obtain ⟨conn, isConn, isHeld⟩ := Option.bind_eq_some_iff.mp isBound
  obtain ⟨was, isWas, binding, -⟩ := sheds.conns ws conn isConn
  exact Option.bind_eq_some_iff.mpr ⟨was, isWas, binding.symm.trans isHeld⟩

/-- The sockets are as they were. -/
theorem sheds_of_same {after : BrowserHub} (conns : after.conns = hub.conns)
    (byBinding : after.byBinding = hub.byBinding) : Sheds hub after := by
  have same (ws : Socket) : after.conn? ws = hub.conn? ws := by
    rw [conn?, conns]
    rfl
  have bound (ws : Socket) : after.bound? ws = hub.bound? ws := congrArg (·.bind Conn.binding) (same ws)
  refine ⟨fun ws conn isConn => ⟨conn, same ws ▸ isConn, rfl, rfl⟩, fun registered => ⟨?_, ?_⟩⟩
  · intro ws held isBound
    rw [byBinding]
    exact registered.attached ws held (bound ws ▸ isBound)
  · intro name ws isRegistered
    rw [byBinding] at isRegistered
    rw [bound]
    exact registered.registered name ws isRegistered

theorem sheds_refl : Sheds hub hub := sheds_of_same rfl rfl

theorem conns_settle (id : String) (result : CallResult) :
    (hub.settle id result).conns = hub.conns := by
  unfold settle
  split <;> rfl

theorem byBinding_settle (id : String) (result : CallResult) :
    (hub.settle id result).byBinding = hub.byBinding := by
  unfold settle
  split <;> rfl

theorem sheds_settle (id : String) (result : CallResult) : Sheds hub (hub.settle id result) :=
  sheds_of_same (conns_settle id result) (byBinding_settle id result)

theorem sheds_settleAll (ids : List String) (result : String → CallResult) :
    Sheds hub (ids.foldl (fun hub id => hub.settle id (result id)) hub) := by
  induction ids generalizing hub with
  | nil => exact sheds_refl
  | cons id rest inductionHypothesis => exact (sheds_settle id (result id)).trans inductionHypothesis

theorem conn?_update (ws : Socket) (change : Conn → Conn)
    (keeps : ∀ conn, (change conn).ws = conn.ws) (other : Socket) :
    (hub.update ws change).conn? other =
      (hub.conn? other).map fun conn => if conn.ws = ws then change conn else conn := by
  rw [conn?, conn?, update, List.find?_map]
  congr 2
  funext conn
  rw [Function.comp_apply]
  split
  · rw [keeps]
  · rfl

/-! ### Taking a socket away -/

theorem conn?_forget (conn : Conn) (other : Socket) :
    (hub.forget conn).conn? other = if other = conn.ws then none else hub.conn? other := by
  rw [conn?, forget, List.find?_filter]
  split
  next same =>
    refine List.find?_eq_none.mpr fun candidate _ => ?_
    simp [same]
  next different =>
    rw [conn?]
    congr 1
    funext candidate
    by_cases same : candidate.ws = other
    · simp [same, different]
    · simp [same]

theorem bound?_forget (conn : Conn) (other : Socket) :
    (hub.forget conn).bound? other = if other = conn.ws then none else hub.bound? other := by
  rw [bound?, conn?_forget]
  split <;> rfl

/-- The names of a socket that was taken away are free. -/
theorem get_byBinding_forget (registered : Registered hub) {conn : Conn}
    (isConn : hub.conn? conn.ws = some conn) (name : String) :
    (hub.forget conn).byBinding.get name =
      if hub.byBinding.get name = some conn.ws then none else hub.byBinding.get name := by
  have isBound : hub.bound? conn.ws = conn.binding := by
    rw [bound?, isConn]
    rfl
  rw [forget]
  split
  next held isHeld =>
    rw [isHeld] at isBound
    rw [if_pos (registered.attached _ _ isBound), Members.get_delete]
    split
    next same => rw [same, if_pos (registered.attached _ _ isBound)]
    next different =>
      rw [if_neg]
      intro isRegistered
      obtain ⟨other, isOther, isName⟩ := registered.registered _ _ isRegistered
      obtain rfl := Option.some.inj (isOther.symm.trans isBound)
      exact different isName.symm
  next isNone =>
    rw [if_neg]
    intro isRegistered
    obtain ⟨other, isOther, -⟩ := registered.registered _ _ isRegistered
    rw [isBound, isNone] at isOther
    cases isOther

theorem sheds_forget {conn : Conn} (isConn : hub.conn? conn.ws = some conn) :
    Sheds hub (hub.forget conn) where
  conns := by
    intro ws other isOther
    rw [conn?_forget] at isOther
    split at isOther
    · cases isOther
    · exact ⟨other, isOther, rfl, rfl⟩
  registered := by
    refine fun registered => ⟨fun ws held isBound => ?_, fun name ws isRegistered => ?_⟩
    · rw [bound?_forget] at isBound
      split at isBound
      · cases isBound
      next different =>
        have isRegistered := registered.attached ws held isBound
        rw [get_byBinding_forget registered isConn, isRegistered, if_neg]
        exact fun same => different (Option.some.inj same)
    · rw [get_byBinding_forget registered isConn] at isRegistered
      split at isRegistered
      · cases isRegistered
      next different =>
        rw [bound?_forget, if_neg]
        · exact registered.registered name ws isRegistered
        · rintro rfl
          exact different isRegistered

theorem sheds_detach (ws : Socket) : Sheds hub (hub.detach ws) := by
  unfold detach
  split
  · exact sheds_refl
  next conn isConn =>
    have same := ws_of_conn? isConn
    exact (sheds_forget (same ▸ isConn)).trans (sheds_settleAll _ _)

theorem conns_settleAll (ids : List String) (result : String → CallResult) :
    (ids.foldl (fun hub id => hub.settle id (result id)) hub).conns = hub.conns := by
  induction ids generalizing hub with
  | nil => rfl
  | cons id rest inductionHypothesis =>
    rw [List.foldl_cons, inductionHypothesis, conns_settle]

theorem byBinding_settleAll (ids : List String) (result : String → CallResult) :
    (ids.foldl (fun hub id => hub.settle id (result id)) hub).byBinding = hub.byBinding := by
  induction ids generalizing hub with
  | nil => rfl
  | cons id rest inductionHypothesis =>
    rw [List.foldl_cons, inductionHypothesis, byBinding_settle]

theorem conn?_detach (ws other : Socket) :
    (hub.detach ws).conn? other = if other = ws then none else hub.conn? other := by
  unfold detach
  split
  next isNone =>
    split
    next same => rw [same, isNone]
    next => rfl
  next conn isConn =>
    rw [conn?, conns_settleAll]
    have forgotten : (hub.forget conn).conn? other = _ := conn?_forget conn other
    rw [ws_of_conn? isConn] at forgotten
    exact forgotten

theorem sheds_drop (ws : Socket) (code : Nat) (reason : String) : Sheds hub (hub.drop ws code reason) :=
  (sheds_detach ws).trans (sheds_of_same rfl rfl)

theorem conn?_drop (ws : Socket) (code : Nat) (reason : String) (other : Socket) :
    (hub.drop ws code reason).conn? other = if other = ws then none else hub.conn? other :=
  conn?_detach ws other

/-- The name of a socket that was dropped is registered for no socket. -/
theorem get_byBinding_drop (registered : Registered hub) {name : String} {old : Socket}
    (isOld : hub.byBinding.get name = some old) (code : Nat) (reason : String) :
    (hub.drop old code reason).byBinding.get name = none := by
  have sheds : Sheds hub (hub.drop old code reason) := sheds_drop old code reason
  rw [Option.eq_none_iff_forall_ne_some]
  intro ws isRegistered
  obtain ⟨held, isBound, isName⟩ := (sheds.registered registered).registered name ws isRegistered
  have isSame := registered.attached ws held (sheds.bound isBound)
  rw [isName, isOld] at isSame
  obtain rfl := Option.some.inj isSame
  rw [bound?, conn?_drop, if_pos rfl] at isBound
  cases isBound

/-! ### Attaching a socket -/

/-- A socket that is not attached becomes the one socket of a binding whose name is free. -/
theorem registered_bind (registered : Registered hub) {ws : Socket} {held : Held} {conn : Conn}
    (isConn : hub.conn? ws = some conn) (unbound : conn.binding = none)
    (free : ∀ other, hub.byBinding.get held.binding.name = some other → other = ws) :
    let bound := hub.update ws fun conn => { conn with binding := some held }
    Registered { bound with byBinding := bound.byBinding.set held.binding.name ws } ∧
      ∀ other conn', bound.conn? other = some conn' →
        (other = ws ∧ conn'.binding = some held ∧ conn'.authenticating = conn.authenticating) ∨
          (other ≠ ws ∧ hub.conn? other = some conn') := by
  intro bound
  have conns (other : Socket) : bound.conn? other = (hub.conn? other).map fun conn =>
      if conn.ws = ws then { conn with binding := some held } else conn :=
    conn?_update ws (fun conn => { conn with binding := some held }) (fun _ => rfl) other
  have isBoundTo : bound.bound? ws = some held := by
    rw [bound?, conns, isConn, Option.map_some, if_pos (ws_of_conn? isConn)]
    rfl
  have others (other : Socket) (different : other ≠ ws) : bound.conn? other = hub.conn? other := by
    rw [conns]
    cases isOther : hub.conn? other with
    | none => rfl
    | some conn' => rw [Option.map_some, if_neg (ws_of_conn? isOther ▸ different)]
  have otherBound (other : Socket) (different : other ≠ ws) : bound.bound? other = hub.bound? other :=
    congrArg (·.bind Conn.binding) (others other different)
  refine ⟨⟨fun other taken isBound => ?_, fun name other isRegistered => ?_⟩, fun other conn' isOther => ?_⟩
  · have isBound : bound.bound? other = some taken := isBound
    rw [Members.get_set]
    by_cases same : other = ws
    · rw [same, isBoundTo] at isBound
      rw [Option.some.inj isBound, if_pos rfl, same]
    · rw [otherBound other same] at isBound
      have isRegistered := registered.attached other taken isBound
      rw [if_neg]
      · exact isRegistered
      · intro sameName
        rw [sameName] at isRegistered
        exact same (free other isRegistered)
  · change ∃ taken, bound.bound? other = some taken ∧ _
    rw [Members.get_set] at isRegistered
    split at isRegistered
    next sameName =>
      obtain rfl := Option.some.inj isRegistered
      exact ⟨held, isBoundTo, sameName.symm⟩
    next =>
      obtain ⟨taken, isBound, isName⟩ := registered.registered name other isRegistered
      have different : other ≠ ws := by
        rintro rfl
        rw [bound?, isConn] at isBound
        exact Option.some_ne_none taken (isBound.symm.trans unbound)
      exact ⟨taken, (otherBound other different).trans isBound, isName⟩
  · by_cases same : other = ws
    · rw [same, conns, isConn, Option.map_some, if_pos (ws_of_conn? isConn)] at isOther
      obtain rfl := Option.some.inj isOther
      exact .inl ⟨same, rfl, rfl⟩
    · exact .inr ⟨same, others other same ▸ isOther⟩

/-- Where a socket is attached, no other one is. -/
theorem registered_attach (registered : Registered hub) {ws : Socket} {conn : Conn}
    (isConn : hub.conn? ws = some conn) (unbound : conn.binding = none) (held : Held) :
    Registered (hub.attach ws held) ∧ ∀ other conn', (hub.attach ws held).conn? other = some conn' →
      (other = ws ∧ conn'.binding = some held ∧ conn'.authenticating = conn.authenticating) ∨
        (other ≠ ws ∧ ∃ was, hub.conn? other = some was ∧ conn'.binding = was.binding ∧
          conn'.authenticating = was.authenticating) := by
  -- An older socket of the binding goes first.
  have bind {alone : BrowserHub} (sheds : Sheds hub alone) (stays : alone.conn? ws = some conn)
      (free : ∀ other, alone.byBinding.get held.binding.name = some other → other = ws) :
      let bound := alone.update ws fun conn => { conn with binding := some held }
      let attached := BrowserHub.touch
        { bound with byBinding := bound.byBinding.set held.binding.name ws } ws
      Registered attached ∧ ∀ other conn', attached.conn? other = some conn' →
        (other = ws ∧ conn'.binding = some held ∧ conn'.authenticating = conn.authenticating) ∨
          (other ≠ ws ∧ ∃ was, hub.conn? other = some was ∧ conn'.binding = was.binding ∧
            conn'.authenticating = was.authenticating) := by
    intro bound attached
    obtain ⟨isRegistered, conns⟩ := registered_bind (sheds.registered registered) stays unbound free
    have touched : Sheds { bound with byBinding := bound.byBinding.set held.binding.name ws } attached :=
      sheds_of_same rfl rfl
    refine ⟨touched.registered isRegistered, fun other conn' isOther => ?_⟩
    exact (conns other conn' isOther).imp_right (And.imp_right (sheds.conns other conn'))
  unfold attach
  rw [isConn]
  dsimp only
  have awaited : Sheds hub (hub.clearTimeout (.hello ws)) := sheds_of_same rfl rfl
  split
  next old isOld =>
    have isOld : hub.byBinding.get held.binding.name = some old := isOld
    split
    next same =>
      refine bind awaited isConn fun other isOther => ?_
      exact (Option.some.inj (isOld.symm.trans isOther)).symm.trans same
    next different =>
      refine bind (awaited.trans (sheds_drop old _ _)) ?_ fun other isOther => ?_
      · rw [conn?_drop, if_neg (Ne.symm different)]
        exact isConn
      · rw [get_byBinding_drop (awaited.registered registered) isOld] at isOther
        cases isOther
  next isFree =>
    refine bind awaited isConn fun other isOther => ?_
    rw [isFree] at isOther
    cases isOther

/-- A change of a connection that keeps its socket and its binding. -/
theorem registered_update (registered : Registered hub) (ws : Socket) {change : Conn → Conn}
    (keeps : ∀ conn, (change conn).ws = conn.ws ∧ (change conn).binding = conn.binding) :
    Registered (hub.update ws change) := by
  have bound (other : Socket) : (hub.update ws change).bound? other = hub.bound? other := by
    rw [bound?, bound?, conn?_update ws change fun conn => (keeps conn).1, Option.bind_map]
    congr 1
    funext conn
    rw [Function.comp_apply]
    split
    · exact (keeps conn).2
    · rfl
  refine ⟨fun other held isBound => ?_, fun name other isRegistered => ?_⟩
  · exact registered.attached other held (bound other ▸ isBound)
  · rw [bound]
    exact registered.registered name other isRegistered

theorem sheds_update (ws : Socket) {change : Conn → Conn}
    (keeps : ∀ conn, (change conn).ws = conn.ws ∧ (change conn).binding = conn.binding ∧
      (change conn).authenticating = conn.authenticating) :
    Sheds hub (hub.update ws change) where
  conns := by
    intro other conn isConn
    rw [conn?_update ws change fun conn => (keeps conn).1] at isConn
    obtain ⟨was, isWas, rfl⟩ := Option.map_eq_some_iff.mp isConn
    refine ⟨was, isWas, ?_⟩
    split
    · exact (keeps was).2
    · exact ⟨rfl, rfl⟩
  registered := fun registered =>
    registered_update registered ws fun conn => ⟨(keeps conn).1, (keeps conn).2.1⟩

/-- The check of a token attaches its socket if it is still open and the token is good. -/
theorem registered_welcome (registered : Registered hub) {ws : Socket}
    (unbound : ∀ conn, hub.conn? ws = some conn → conn.binding = none) (paused : Bool)
    (checked : Checked) :
    Registered (hub.welcome ws paused checked) ∧
      ∀ other conn', (hub.welcome ws paused checked).conn? other = some conn' →
        (other = ws ∧ ∃ held, checked = .binding held ∧ conn'.binding = some held ∧
          (hub.conn? ws).isSome = true) ∨
        (other ≠ ws ∧ ∃ was, hub.conn? other = some was ∧ conn'.binding = was.binding ∧
          conn'.authenticating = was.authenticating) := by
  have dropped (code : Nat) (reason : String) : Registered (hub.drop ws code reason) ∧
      ∀ other conn', (hub.drop ws code reason).conn? other = some conn' →
        other ≠ ws ∧ ∃ was, hub.conn? other = some was ∧ conn'.binding = was.binding ∧
          conn'.authenticating = was.authenticating := by
    have sheds : Sheds hub (hub.drop ws code reason) := sheds_drop ws code reason
    refine ⟨sheds.registered registered, fun other conn' isOther => ⟨?_, sheds.conns other conn' isOther⟩⟩
    rintro rfl
    rw [conn?_drop, if_pos rfl] at isOther
    cases isOther
  cases checked with
  | failed => exact (dropped _ _).imp_right fun others other conn' isOther => .inr (others other conn' isOther)
  | unauthorised =>
    exact (dropped _ _).imp_right fun others other conn' isOther => .inr (others other conn' isOther)
  | binding held =>
    rw [welcome]
    split
    next isNone =>
      refine ⟨registered, fun other conn' isOther => .inr ⟨?_, conn', isOther, rfl, rfl⟩⟩
      rintro rfl
      rw [isNone] at isOther
      cases isOther
    next conn isConn =>
      -- The state of the connection is set before the socket is attached.
      let change : Conn → Conn := fun conn => { conn with paused := paused, authenticating := false }
      have conns (other : Socket) : (hub.update ws change).conn? other = _ :=
        conn?_update ws change (fun _ => rfl) other
      have isChanged : (hub.update ws change).conn? ws = some (change conn) := by
        rw [conns, isConn, Option.map_some, if_pos (ws_of_conn? isConn)]
      have isUnbound : (change conn).binding = none := unbound conn isConn
      have isRegistered : Registered (hub.update ws change) :=
        registered_update registered ws fun _ => ⟨rfl, rfl⟩
      obtain ⟨attached, others⟩ := registered_attach isRegistered isChanged isUnbound held
      have sent : Sheds ((hub.update ws change).attach ws held)
          (((hub.update ws change).attach ws held).send ws
            (.welcome held.binding.name held.binding.target)) := sheds_of_same rfl rfl
      refine ⟨sent.registered attached, fun other conn' isOther => ?_⟩
      obtain ⟨same, isHeld, -⟩ | ⟨different, was, isWas, binding⟩ := others other conn' isOther
      · exact .inl ⟨same, held, rfl, isHeld, isConn ▸ rfl⟩
      · refine .inr ⟨different, was, ?_, binding⟩
        rw [conns] at isWas
        obtain ⟨before, isBefore, rfl⟩ := Option.map_eq_some_iff.mp isWas
        rw [isBefore, if_neg (ws_of_conn? isBefore ▸ different)]

/-! ### The other operations -/

theorem conn?_open_ (ws other : Socket) :
    (hub.open_ ws).conn? other =
      (hub.conn? other).or (if other = ws then some ⟨ws, none, false, false⟩ else none) := by
  rw [conn?, open_, List.find?_append]
  congr 1
  by_cases same : other = ws
  · simp [same]
  · simp [same, Ne.symm same]

theorem registered_open_ (registered : Registered hub) (ws : Socket) : Registered (hub.open_ ws) := by
  have bound (other : Socket) : (hub.open_ ws).bound? other = hub.bound? other := by
    rw [bound?, bound?, conn?_open_]
    cases hub.conn? other with
    | some conn => rfl
    | none =>
      rw [Option.none_or]
      split <;> rfl
  refine ⟨fun other held isBound => ?_, fun name other isRegistered => ?_⟩
  · exact registered.attached other held (bound other ▸ isBound)
  · rw [bound]
    exact registered.registered name other isRegistered

theorem sheds_receive (ws : Socket) (kind : String) (msg : Object) :
    Sheds hub (hub.receive ws kind msg) := by
  unfold receive
  split
  · exact sheds_of_same rfl rfl
  · exact sheds_update ws fun _ => ⟨rfl, rfl, rfl⟩
  · split
    · exact sheds_refl
    split
    · split
      · exact sheds_settle _ _
      · exact sheds_refl
    · exact sheds_refl
  · exact sheds_refl

/-- A frame attaches no socket; it may start the check of a token. -/
theorem message_cases (ws : Socket) (frame : Option Json) :
    ((hub.message ws frame).2 = none ∧ Sheds hub (hub.message ws frame).1) ∨
      ∃ conn token, hub.conn? ws = some conn ∧ conn.binding = none ∧ conn.authenticating = false ∧
        hub.message ws frame =
          (hub.update ws fun conn => { conn with authenticating := true }, some token) := by
  unfold message
  split
  · exact .inl ⟨rfl, sheds_refl⟩
  next conn isConn =>
    split
    · exact .inl ⟨rfl, sheds_drop _ _ _⟩
    split
    · exact .inl ⟨rfl, sheds_drop _ _ _⟩
    split
    next isNone =>
      unfold greet
      split
      · exact .inl ⟨rfl, sheds_refl⟩
      next notYet =>
        split
        · split
          · exact .inr ⟨conn, _, isConn, isNone, eq_false_of_ne_true notYet, by rw [ws_of_conn? isConn]⟩
          · exact .inl ⟨rfl, sheds_drop _ _ _⟩
        · exact .inl ⟨rfl, sheds_drop _ _ _⟩
    next =>
      have touched : Sheds hub (hub.touch ws) := sheds_of_same rfl rfl
      exact .inl ⟨rfl, touched.trans (sheds_receive ws _ _)⟩

theorem sheds_abort (id : String) : Sheds hub (hub.abort id) := by
  unfold abort
  split
  · exact sheds_refl
  next pending _ =>
    have sent : Sheds hub (hub.send pending.ws (.abort id)) := sheds_of_same rfl rfl
    exact sent.trans (sheds_settle _ _)

theorem sheds_call (binding : String) (req : CallRequest) (timeoutMs : Nat) (started : Int)
    (outcome : SendOutcome) : Sheds hub (hub.call binding req timeoutMs started outcome) := by
  unfold call
  dsimp only
  split
  · exact sheds_of_same rfl rfl
  split
  · exact sheds_of_same rfl rfl
  split
  · exact sheds_of_same rfl rfl
  · exact sheds_of_same ((conns_settle _ _).trans rfl) ((byBinding_settle _ _).trans rfl)

theorem sheds_revoke (binding : String) : Sheds hub (hub.revoke binding) := by
  unfold revoke
  split
  · exact sheds_drop _ _ _
  · exact sheds_refl

/-- After a revocation no socket is attached under the name. -/
theorem name_ne_of_bound?_revoke (registered : Registered hub) {name : String} {ws : Socket}
    {held : Held} (isBound : (hub.revoke name).bound? ws = some held) : held.binding.name ≠ name := by
  rintro rfl
  have isRegistered := registered.attached ws held ((sheds_revoke _).bound isBound)
  unfold revoke at isBound
  rw [isRegistered] at isBound
  have isGone : (hub.drop ws 4401 "binding revoked").bound? ws = none := by
    rw [bound?, conn?_drop, if_pos rfl]
    rfl
  cases isGone.symm.trans isBound

theorem sheds_closeAll (code : Nat) : Sheds hub (hub.closeAll code) := by
  unfold closeAll
  generalize hub.conns.map Conn.ws = sockets
  induction sockets generalizing hub with
  | nil => exact sheds_refl
  | cons ws rest inductionHypothesis => exact (sheds_drop _ _ _).trans inductionHypothesis

theorem sheds_fire (timer : Timer) : Sheds hub (hub.fire timer) := by
  have cleared : Sheds hub (hub.clearTimeout timer) := sheds_of_same rfl rfl
  unfold fire
  split
  · cases timer with
    | hello ws => exact cleared.trans (sheds_drop _ _ _)
    | silence ws => exact cleared.trans (sheds_drop _ _ _)
    | call id ws timeoutMs =>
      have sent : Sheds hub ((hub.clearTimeout (.call id ws timeoutMs)).send ws (.abort id)) :=
        sheds_of_same rfl rfl
      exact sent.trans (sheds_settle _ _)
  · exact sheds_refl

theorem registered_new : Registered new where
  attached := fun _ _ isBound => nomatch isBound
  registered := fun _ _ isRegistered => nomatch isRegistered

end AiSwitcher.Gateway.Browser.BrowserHub
